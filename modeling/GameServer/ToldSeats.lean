import GameServer.JsonTranslator
import GameServer.RefusedOps
import GameServer.ServedRooms

namespace GameServer
open Foundation JSONTranslator

def seatField : Json → Option UInt64
  | .object fields => (fields.find? fun field => field.1 = stdString "seat_index").bind fun field =>
    match field.2 with
    | .number seat => some seat
    | _ => none
  | _ => none

-- The seat in the text that describes a room to somebody who has just come.
def GameRoom.toldSeat (room : GameRoom) (heap : Heap) : Option UInt64 := seatField (roomInfo (room.getAllInfo heap))

-- What a member was told at its creation of the room or its joining it, and how
-- many of those in front of it have gone since.
structure Ticket where
  seat : Option UInt64 := none
  gone : Nat := 0

structure Hall where
  lobby : Lobby
  tickets : RoomId → UserId → Ticket := fun _ _ => {}

namespace Hall

def issue (h : Hall) (next : Lobby) (roomId : RoomId) (userId : UserId) : RoomId → UserId → Ticket := fun other id =>
  if other = roomId ∧ id = userId then ⟨(next.getRoom roomId).bind fun room => room.toldSeat next.heap,0⟩
  else h.tickets other id

def InFront (ids : List UserId) (first second : UserId) : Prop := first ∈ ids ∧ ids.idxOf first < ids.idxOf second

instance (ids : List UserId) (first second : UserId) : Decidable (InFront ids first second) :=
  inferInstanceAs (Decidable (_ ∧ _))

def depart (h : Hall) (roomId : RoomId) (userId : UserId) : RoomId → UserId → Ticket := fun other id =>
  match h.lobby.getRoom roomId with
  | none => h.tickets other id
  | some room =>
    if other = roomId ∧ InFront room.memberIds userId id then { h.tickets other id with gone := (h.tickets other id).gone + 1 }
    else h.tickets other id

def answeredOk : Option (Except Thrown RoomReqResult × Lobby) → Bool
  | some (.ok .ok,_) => true
  | _ => false

def note (h : Hall) (next : Lobby) : Lobby.Event → RoomId → UserId → Ticket
  | .createRoom roomInfo dist =>
    if (h.lobby.createRoom roomInfo dist).result = .ok then h.issue next h.lobby.manager.nextRoomId roomInfo.ownerId
    else h.tickets
  | .joinRoom roomId playerId =>
    if answeredOk (h.lobby.joinRoom roomId playerId) then h.issue next roomId playerId else h.tickets
  | .leaveRoom roomId playerId => if answeredOk (h.lobby.leaveRoom roomId playerId) then h.depart roomId playerId else h.tickets
  | .kickPlayer roomId playerId targetId =>
    if answeredOk (h.lobby.kickPlayer roomId playerId targetId) then h.depart roomId targetId else h.tickets
  | _ => h.tickets

def step (h : Hall) (event : Lobby.Event) : Option Hall :=
  if event.managed then (h.lobby.step event).map fun next => ⟨next,h.note next event⟩ else none

end Hall

theorem toldSeat_count (room : GameRoom) (heap : Heap) :
    room.toldSeat heap = some (UInt64.ofNat room.group.members.length - 1) := by
  have others : ∀ name ∈ ["cmd_type","players","state","room_code","room_name","password","capacity","player_count",
      "selected_map_path","owner_id"], stdString name ≠ stdString "seat_index" := by decide +kernel
  simp only [List.forall_mem_cons] at others
  obtain ⟨one,two,three,four,five,six,seven,eight,nine,ten,-⟩ := others
  simp [GameRoom.toldSeat,roomInfo,seatField,one,two,three,four,five,six,seven,eight,nine,ten,GameRoom.getAllInfo,
    Group.getMemberCount]

theorem idxOf_erase {ids : List UserId} (nodup : ids.Nodup) (gone : UserId) {id : UserId} (stays : id ∈ ids.erase gone) :
    ids.idxOf id = (ids.erase gone).idxOf id + if Hall.InFront ids gone id then 1 else 0 := by
  induction ids with
  | nil => cases stays
  | cons first rest ih =>
    obtain ⟨fresh,nodup⟩ := List.nodup_cons.mp nodup
    by_cases here : first = gone
    · subst here
      rw [List.erase_cons_head] at stays ⊢
      have other : first ≠ id := fun same => fresh (same ▸ stays)
      simp [Hall.InFront,List.idxOf_cons_ne rest other]
    · have tail : (first :: rest).erase gone = first :: rest.erase gone := List.erase_cons_tail (by simpa using here)
      rw [tail] at stays ⊢
      rcases List.mem_cons.mp stays with rfl | later
      · simp [Hall.InFront]
      · have other : first ≠ id := fun same => fresh (same ▸ List.mem_of_mem_erase later)
        have shifted := ih nodup later
        have alike : Hall.InFront (first :: rest) gone id ↔ Hall.InFront rest gone id := by
          simp only [Hall.InFront,List.idxOf_cons_ne _ other,List.idxOf_cons_ne _ here,List.mem_cons,Ne.symm here,false_or,
            Nat.succ_lt_succ_iff]
        rw [List.idxOf_cons_ne _ other,List.idxOf_cons_ne _ other]
        by_cases front : Hall.InFront rest gone id
        · rw [if_pos front] at shifted
          rw [if_pos (alike.mpr front)]
          omega
        · rw [if_neg front] at shifted
          rw [if_neg (fun held => front (alike.mp held))]
          omega

namespace Hall

-- In the match just started every member has the seat it was told, and no other
-- member was told the same.
structure SeatsAsTold (h : Hall) (roomId : RoomId) (started : GameRoom) : Prop where
  told : ∀ id ∈ started.memberIds, ∃ state seat, started.cmdHandler.runtime.players.lookup id = some state ∧
    (h.tickets roomId id).seat = some seat ∧ state.seatIndex.toNat = seat.toNat
  apart : ∀ id other, id ∈ started.memberIds → other ∈ started.memberIds →
    (h.tickets roomId id).seat = (h.tickets roomId other).seat → id = other

-- What is asked of every StartGame that succeeds.
def Starts (law : Hall → RoomId → GameRoom → Prop) (h : Hall) : Lobby.Event → Hall → Prop
  | .startGame roomId playerId loadMapData,_ => ∀ room started, h.lobby.getRoom roomId = some room →
      room.startGame h.lobby.heap loadMapData playerId = (.ok .ok,started) → law h roomId started
  | _,_ => True

-- The seat told is where the member stands, and those in front who have gone.
structure Ticketed (h : Hall) : Prop where
  sound : h.lobby.Sound
  seats : ∀ roomId room, h.lobby.getRoom roomId = some room → ∀ id ∈ room.memberIds, ∃ seat,
    (h.tickets roomId id).seat = some seat ∧ seat.toNat = room.memberIds.idxOf id + (h.tickets roomId id).gone

section Seats
variable {h : Hall} {next : Lobby} {roomId : RoomId}

theorem member_nodup (sound : next.Sound) {room : GameRoom} (listed : next.getRoom roomId = some room) : room.memberIds.Nodup :=
  (sound.seated roomId room listed).keyed

theorem quiet_seats (ticketed : h.Ticketed) (sound : next.Sound)
    (rooms : ∀ other changed, next.getRoom other = some changed →
      ∃ room, h.lobby.getRoom other = some room ∧ changed.memberIds = room.memberIds) : Ticketed ⟨next,h.tickets⟩ := by
  refine ⟨sound,?_⟩
  intro other changed listed id member
  obtain ⟨room,found,same⟩ := rooms other changed listed
  rw [same] at member ⊢
  exact ticketed.seats other room found id member

theorem issued_seats (ticketed : h.Ticketed) (sound : next.Sound) {changed : GameRoom} {userId : UserId}
    (here : next.getRoom roomId = some changed) {earlier : List UserId} (ids : changed.memberIds = earlier ++ [userId])
    (before : ∀ id ∈ earlier, ∃ room, h.lobby.getRoom roomId = some room ∧ room.memberIds = earlier)
    (others : ∀ other, other ≠ roomId → next.getRoom other = h.lobby.getRoom other) :
    Ticketed ⟨next,h.issue next roomId userId⟩ := by
  have nodup := member_nodup sound here
  have count : changed.group.members.length = earlier.length + 1 := by
    have length := congrArg List.length ids
    rwa [GameRoom.memberIds,List.length_map,List.length_append,List.length_singleton] at length
  have small : earlier.length + 1 < UInt64.size := by
    have bound := GameRoom.nodup_bound nodup
    rw [ids,List.length_append,List.length_singleton] at bound
    exact Nat.lt_of_le_of_lt bound (by decide)
  refine ⟨sound,?_⟩
  intro other room listed id member
  unfold issue
  dsimp only
  by_cases same : other = roomId
  · subst same
    cases here.symm.trans listed
    rw [ids] at nodup member
    by_cases new : id = userId
    · subst new
      have fresh : id ∉ earlier := fun old => (List.disjoint_of_nodup_append nodup old) (List.mem_singleton.mpr rfl)
      rw [if_pos ⟨rfl,rfl⟩,here,Option.bind_some,toldSeat_count,count,ids]
      refine ⟨_,rfl,?_⟩
      have one : (1 : UInt64) ≤ UInt64.ofNat (earlier.length + 1) := by
        rw [UInt64.le_iff_toNat_le,UInt64.toNat_ofNat_of_lt' small]
        exact Nat.le_add_left 1 _
      rw [List.idxOf_append_of_notMem fresh,List.idxOf_cons_self,UInt64.toNat_sub_of_le _ _ one,
        UInt64.toNat_ofNat_of_lt' small]
      rfl
    · rw [if_neg (fun both => new both.2)]
      have old : id ∈ earlier := (List.mem_append.mp member).resolve_right fun last => new (List.mem_singleton.mp last)
      obtain ⟨room,found,line⟩ := before id old
      rw [ids,List.idxOf_append_of_mem old,← line]
      exact ticketed.seats other room found id (line ▸ old)
  · rw [if_neg (fun both => same both.1)]
    rw [others other same] at listed
    exact ticketed.seats other room listed id member

theorem departed_seats (ticketed : h.Ticketed) (sound : next.Sound) {room changed : GameRoom} {userId : UserId}
    (found : h.lobby.getRoom roomId = some room) (here : next.getRoom roomId = some changed)
    (ids : changed.memberIds = room.memberIds.erase userId)
    (others : ∀ other, other ≠ roomId → next.getRoom other = h.lobby.getRoom other) :
    Ticketed ⟨next,h.depart roomId userId⟩ := by
  refine ⟨sound,?_⟩
  intro other another listed id member
  unfold depart
  rw [found]
  dsimp only
  by_cases same : other = roomId
  · subst same
    cases here.symm.trans listed
    rw [ids] at member
    have line := idxOf_erase (member_nodup ticketed.sound found) userId member
    obtain ⟨seat,told,value⟩ := ticketed.seats other room found id (List.mem_of_mem_erase member)
    rw [ids]
    split
    · rename_i front
      rw [if_pos front.2] at line
      exact ⟨seat,told,by dsimp only; omega⟩
    · rename_i behind
      rw [if_neg (fun front => behind ⟨rfl,front⟩)] at line
      exact ⟨seat,told,by omega⟩
  · rw [if_neg (fun both => same both.1)]
    rw [others other same] at listed
    exact ticketed.seats other another listed id member

theorem kickPlayer_expels {room : GameRoom} {playerId targetId : UserId} (ok : (room.kickPlayer playerId targetId).1 = .ok) :
    room.Expels playerId targetId := by
  unfold GameRoom.kickPlayer at ok
  split at ok
  · cases ok
  · rename_i owner
    split at ok
    · cases ok
    · rename_i lobby
      split at ok
      · cases ok
      · rename_i other
        exact ⟨not_not.mp owner,by simpa using lobby,other⟩

theorem answered_ok {result : Except Thrown RoomReqResult} : answeredOk (some (result,next)) = true ↔ result = .ok .ok := by
  unfold answeredOk
  split
  · rename_i same
    cases same
    exact iff_of_true rfl rfl
  · rename_i different
    exact iff_of_false nofun fun same => different next (by rw [same])

theorem removal_seats (ticketed : h.Ticketed) (sound : next.Sound) {op : GameRoom.Op} {userId : UserId}
    {result : Except Thrown RoomReqResult} (answered : h.lobby.withRoom roomId op = some (result,next))
    (joins : ∀ player, op ≠ .joinRoom player) (commands : ∀ iteration cmd, op ≠ .processCommand iteration cmd)
    (removes : ∀ (room changed : GameRoom) heap, room.perform h.lobby.heap op = some (.ok .ok,changed,heap) →
      changed.memberIds = room.memberIds.erase userId) :
    Ticketed ⟨next,if answeredOk (h.lobby.withRoom roomId op) then h.depart roomId userId else h.tickets⟩ := by
  rw [answered]
  by_cases ok : result = .ok .ok
  · rw [if_pos (answered_ok.mpr ok)]
    subst ok
    rcases Lobby.withRoom_called answered with ⟨-,wrong,-⟩ | ⟨room,changed,called⟩
    · cases wrong
    · refine departed_seats ticketed sound called.found ((called.rooms roomId).trans (if_pos rfl))
        (removes room changed next.heap called.performed) ?_
      exact fun other different => (called.rooms other).trans (if_neg different)
  · rw [if_neg (fun held => ok (answered_ok.mp held))]
    have unchanged := Lobby.withRoom_refused joins commands answered ok
    apply quiet_seats ticketed sound
    intro other changed listed
    have kept := unchanged.rooms other
    rw [listed,Option.map_some] at kept
    obtain ⟨room,found,same⟩ := Option.map_eq_some_iff.mp kept.symm
    refine ⟨room,found,?_⟩
    have group : room.group = changed.group := congrArg Prod.snd same
    rw [GameRoom.memberIds,GameRoom.memberIds,group]

theorem join_seats (ticketed : h.Ticketed) (sound : next.Sound) {playerId : UserId} {result : Except Thrown RoomReqResult}
    (answered : h.lobby.joinRoom roomId playerId = some (result,next)) :
    Ticketed ⟨next,if answeredOk (h.lobby.joinRoom roomId playerId) then h.issue next roomId playerId else h.tickets⟩ := by
  have refusal {answer : RoomReqResult} (failed : answer ≠ .ok) : ¬ answeredOk (some (.ok answer,next)) = true :=
    fun held => failed (Except.ok.inj (answered_ok.mp held))
  rw [answered]
  cases managed : h.lobby.manager.hasPlayerManager with
  | false =>
    obtain ⟨answer,failed,refused⟩ := Lobby.joinRoom_unmanaged managed roomId playerId
    cases answered.symm.trans refused
    rw [if_neg (refusal failed)]
    exact quiet_seats ticketed sound fun other changed listed => ⟨changed,listed,rfl⟩
  | true =>
    have entering := Lobby.joinRoom_entering managed roomId playerId
    rw [answered] at entering
    cases entering with
    | refused failed kept =>
      rw [if_neg (refusal failed)]
      exact quiet_seats ticketed sound fun other changed listed => ⟨changed,listed,rfl⟩
    | turned failed kept found names =>
      rw [if_neg (refusal failed)]
      exact quiet_seats ticketed sound fun other changed listed => ⟨changed,(Lobby.rehoused_same found other).symm.trans listed,rfl⟩
    | @entered room player enters =>
      rw [if_pos (answered_ok.mpr rfl)]
      have rooms (other : RoomId) : (h.lobby.rehoused roomId (room.seat player)
          (player.enterRoom h.lobby.heap room.info.roomId)).getRoom other =
            if other = roomId then some (room.seat player) else h.lobby.getRoom other := Lobby.rehoused_getRoom enters.listed other
      have ids : (room.seat player).memberIds = room.memberIds ++ [playerId] := by
        rw [← ticketed.sound.registry.named _ _ enters.known]
        simp [GameRoom.memberIds,GameRoom.seat]
      apply issued_seats ticketed sound ((rooms roomId).trans (if_pos rfl)) ids
      · exact fun _ _ => ⟨room,enters.listed,rfl⟩
      · exact fun other different => (rooms other).trans (if_neg different)

theorem createRoom_answer (w : Lobby) (roomInfo : GameRoomInfo) (dist : Fin 6 → Fin 36) :
    (w.createRoom roomInfo dist).result = .ok ↔ (w.createRoom roomInfo dist).outRoomCode.isSome = true := by
  unfold Lobby.createRoom
  dsimp only
  split
  · exact iff_of_false nofun nofun
  · split
    · exact iff_of_false nofun nofun
    · split
      · rename_i refused
        exact iff_of_false refused nofun
      · exact iff_of_true rfl rfl

theorem create_seats (ticketed : h.Ticketed) {roomInfo : GameRoomInfo} {dist : Fin 6 → Fin 36}
    (sound : (h.lobby.createRoom roomInfo dist).lobby.Sound) :
    Ticketed ⟨(h.lobby.createRoom roomInfo dist).lobby,if (h.lobby.createRoom roomInfo dist).result = .ok
      then h.issue (h.lobby.createRoom roomInfo dist).lobby h.lobby.manager.nextRoomId roomInfo.ownerId else h.tickets⟩ := by
  have moves : Lobby.Moves h.lobby (.createRoom roomInfo dist) (h.lobby.createRoom roomInfo dist).lobby :=
    Lobby.createRoom_moves roomInfo dist
  have settled (registers : ¬ h.lobby.Registers roomInfo)
      (rooms : ∀ other, (h.lobby.createRoom roomInfo dist).lobby.getRoom other = h.lobby.getRoom other) :
      Ticketed ⟨(h.lobby.createRoom roomInfo dist).lobby,if (h.lobby.createRoom roomInfo dist).result = .ok
        then h.issue (h.lobby.createRoom roomInfo dist).lobby h.lobby.manager.nextRoomId roomInfo.ownerId else h.tickets⟩ := by
    have failed : ¬ (h.lobby.createRoom roomInfo dist).result = .ok := by
      rw [createRoom_answer,(Lobby.createRoom_refused dist registers).1]
      nofun
    rw [if_neg failed]
    exact quiet_seats ticketed sound fun other changed listed => ⟨changed,(rooms other).symm.trans listed,rfl⟩
  cases moves with
  | calls asked called => cases asked
  | dissolves dissolution => cases dissolution
  | rests idle => exact settled (idle.creates _ _ rfl).1 idle.rooms
  | bars creates barred owner rooms heap players =>
    cases creates
    refine settled (fun registers => ?_) rooms
    have capacity := registers.room
    rw [barred.room] at capacity
    exact Nat.lt_irrefl 0 capacity
  | enters creates registers owner rooms heap players =>
    cases creates
    have ok : (h.lobby.createRoom roomInfo dist).result = .ok := by
      rw [createRoom_answer,(Lobby.createRoom_registers dist registers).1]
      rfl
    rw [if_pos ok]
    have ids : ((h.lobby.newRoom roomInfo dist).seat _).memberIds = [] ++ [roomInfo.ownerId] :=
      Lobby.newRoom_ids ticketed.sound.registry owner
    refine issued_seats ticketed sound ((rooms _).trans (if_pos rfl)) ids ?_ ?_
    · exact fun _ old => (List.not_mem_nil old).elim
    · exact fun other different => (rooms other).trans (if_neg different)

theorem moves_quiet {w : Lobby} {event : Lobby.Event} (managed : event.managed = true) (moves : Lobby.Moves w event next)
    (creates : ∀ roomInfo dist, event ≠ .createRoom roomInfo dist)
    (joins : ∀ roomId playerId, event ≠ .joinRoom roomId playerId)
    (leaves : ∀ roomId playerId, event ≠ .leaveRoom roomId playerId)
    (kicks : ∀ roomId playerId targetId, event ≠ .kickPlayer roomId playerId targetId) :
    ∀ other changed, next.getRoom other = some changed →
      ∃ room, w.getRoom other = some room ∧ changed.memberIds = room.memberIds := by
  intro other changed listed
  cases moves with
  | @calls target op room after result asked called =>
    rw [called.rooms] at listed
    split at listed
    · rename_i here
      cases listed
      refine ⟨room,here ▸ called.found,(GameRoom.perform_roster called.performed).trans ?_⟩
      cases event with
      | createRoom roomInfo dist => exact (creates roomInfo dist rfl).elim
      | joinRoom roomId playerId => exact (joins roomId playerId rfl).elim
      | leaveRoom roomId playerId => exact (leaves roomId playerId rfl).elim
      | kickPlayer roomId playerId targetId => exact (kicks roomId playerId targetId rfl).elim
      | roomCall roomId op =>
        cases asked
        cases op with
        | tick deltaMs => rfl
        | processCommand iteration cmd => rfl
        | _ => cases managed
      | _ => cases asked <;> rfl
    · exact ⟨changed,listed,rfl⟩
  | enters creation => exact (creates _ _ creation).elim
  | bars creation => exact (creates _ _ creation).elim
  | dissolves dissolution found owner rooms heap players =>
    rw [rooms] at listed
    split at listed
    · cases listed
    · exact ⟨changed,listed,rfl⟩
  | rests idle =>
    rw [idle.rooms] at listed
    exact ⟨changed,listed,rfl⟩

theorem step_ticketed {event : Lobby.Event} {after : Hall} (ticketed : h.Ticketed) (stepped : step h event = some after) :
    Ticketed after := by
  unfold step at stepped
  split at stepped
  · rename_i managed
    obtain ⟨next,taken,rfl⟩ := Option.map_eq_some_iff.mp stepped
    have registry := Lobby.step_registry ticketed.sound.registry managed taken
    have moves := Lobby.step_moves ticketed.sound.registry managed taken
    have sound := Lobby.moves_sound ticketed.sound registry moves
    cases event with
    | createRoom roomInfo dist =>
      cases taken
      exact create_seats ticketed sound
    | joinRoom roomId playerId =>
      obtain ⟨⟨result,other⟩,answered,same⟩ := Option.map_eq_some_iff.mp taken
      cases same
      exact join_seats ticketed sound answered
    | leaveRoom roomId playerId =>
      obtain ⟨⟨result,other⟩,answered,same⟩ := Option.map_eq_some_iff.mp taken
      cases same
      apply removal_seats ticketed sound answered nofun nofun
      intro room changed heap performed
      exact GameRoom.perform_roster performed
    | kickPlayer roomId playerId targetId =>
      obtain ⟨⟨result,other⟩,answered,same⟩ := Option.map_eq_some_iff.mp taken
      cases same
      apply removal_seats ticketed sound answered nofun nofun
      intro room changed heap performed
      have roster := GameRoom.perform_roster performed
      simp only [GameRoom.perform,Option.some.injEq,Prod.mk.injEq,Except.ok.injEq] at performed
      rw [roster,GameRoom.roster_kickPlayer,if_pos (kickPlayer_expels performed.1)]
    | _ => exact quiet_seats ticketed sound (moves_quiet managed moves nofun nofun nofun nofun)
  · cases stepped

theorem start_seats (ticketed : h.Ticketed) {room started : GameRoom} {playerId : UserId}
    {loadMapData : StdString → Option MapData} (found : h.lobby.getRoom roomId = some room)
    (starts : room.startGame h.lobby.heap loadMapData playerId = (.ok .ok,started)) :
    SeatsAsTold h roomId started ↔ ∀ id ∈ started.memberIds, (h.tickets roomId id).gone = 0 := by
  have seats := GameRoom.started_seats (ticketed.sound.seated roomId room found) (GameRoom.startGame_runtime starts)
  have ids : started.memberIds = room.memberIds := by
    have group : (room.startGame h.lobby.heap loadMapData playerId).2.group = room.group :=
      (GameRoom.startGame_group h.lobby.heap loadMapData playerId).1
    rw [starts] at group
    rw [GameRoom.memberIds,group,GameRoom.memberIds]
  have dealt : ∀ id ∈ room.memberIds, ∃ state, started.cmdHandler.runtime.players.lookup id = some state ∧
      state.seatIndex.toNat = room.memberIds.idxOf id := by
    intro id member
    have place : room.memberIds[room.memberIds.idxOf id]? = some id := List.getElem?_idxOf member
    rw [GameRoom.memberIds,List.getElem?_map] at place
    obtain ⟨player,stands,same⟩ := Option.map_eq_some_iff.mp place
    obtain ⟨state,known,seat⟩ := seats.seats _ player stands
    exact ⟨state,same ▸ known,seat⟩
  rw [ids]
  refine ⟨?_,?_⟩
  · intro asTold id member
    obtain ⟨state,seat,known,told,equal⟩ := asTold.told id (ids ▸ member)
    obtain ⟨other,also,place⟩ := dealt id member
    obtain ⟨number,said,value⟩ := ticketed.seats roomId room found id member
    cases known.symm.trans also
    cases told.symm.trans said
    omega
  · intro nobody
    have standing : ∀ id ∈ room.memberIds, ∃ seat, (h.tickets roomId id).seat = some seat ∧
        seat.toNat = room.memberIds.idxOf id := by
      intro id member
      obtain ⟨seat,said,value⟩ := ticketed.seats roomId room found id member
      rw [nobody id member] at value
      exact ⟨seat,said,value⟩
    refine ⟨?_,?_⟩
    · intro id member
      rw [ids] at member
      obtain ⟨state,known,place⟩ := dealt id member
      obtain ⟨seat,said,value⟩ := standing id member
      exact ⟨state,seat,known,said,place.trans value.symm⟩
    · intro id other member another same
      rw [ids] at member another
      obtain ⟨seat,said,value⟩ := standing id member
      obtain ⟨number,told,also⟩ := standing other another
      rw [said,told] at same
      cases same
      exact (List.idxOf_inj member).mp (value.symm.trans also)

end Seats

theorem opened_ticketed (heap : Heap) : Ticketed { lobby := Lobby.opened heap } :=
  ⟨Lobby.opened_sound heap,fun _ _ found => by cases found⟩

theorem told_seats_exact (heap : Heap) (events : List Lobby.Event) :
    Machine.Every step (Starts SeatsAsTold) { lobby := Lobby.opened heap } events ↔
      Machine.Every step (Starts fun h roomId started => ∀ id ∈ started.memberIds, (h.tickets roomId id).gone = 0)
        { lobby := Lobby.opened heap } events := by
  refine Machine.every_congr (fun _ _ _ ticketed stepped _ => step_ticketed ticketed stepped) ?_ (opened_ticketed heap)
  intro h event after ticketed _
  cases event with
  | startGame roomId playerId loadMapData =>
    refine forall₂_congr fun room started => forall₂_congr fun found starts => ?_
    exact start_seats ticketed found starts
  | _ => exact Iff.rfl

def seatMoves : List Lobby.Event := [.setPlayerManager true,.userLogin ⟨.success,1,1,[]⟩,.userLogin ⟨.success,2,2,[]⟩,
  .userLogin ⟨.success,3,3,[]⟩,.createRoom { ownerId := 1, capacity := 4 } Lobby.zeros,.joinRoom 1 2,.joinRoom 1 3,.leaveRoom 1 2]

def plainMap : StdString → Option MapData := fun _ => some Battle.duelMap

theorem third_player_moves_up : ¬ Machine.Every step (Starts SeatsAsTold) { lobby := Lobby.opened Lobby.noInfos }
    (seatMoves ++ [.startGame 1 1 plainMap]) := by
  intro every
  have seen : ((Machine.run step { lobby := Lobby.opened Lobby.noInfos } seatMoves).bind fun h =>
      (step h (.startGame 1 1 plainMap)).bind fun _ => (h.lobby.getRoom 1).map fun room => (
        decide ((room.startGame h.lobby.heap plainMap 1).1.toOption = some .ok),
        (room.startGame h.lobby.heap plainMap 1).2.memberIds,
        (h.tickets 1 3).seat,
        ((room.startGame h.lobby.heap plainMap 1).2.cmdHandler.runtime.players.lookup 3).map (·.seatIndex))) =
      some (true,[1,3],some 2,some 1) := by decide +kernel
  obtain ⟨h,path,seen⟩ := Option.bind_eq_some_iff.mp seen
  obtain ⟨next,stepped,seen⟩ := Option.bind_eq_some_iff.mp seen
  obtain ⟨room,listed,shown⟩ := Option.map_eq_some_iff.mp seen
  simp only [Prod.mk.injEq,decide_eq_true_eq] at shown
  obtain ⟨accepted,members,ticket,seat⟩ := shown
  have starts : room.startGame h.lobby.heap plainMap 1 = (.ok .ok,(room.startGame h.lobby.heap plainMap 1).2) := by
    cases answered : (room.startGame h.lobby.heap plainMap 1).1 with
    | error thrown => rw [answered] at accepted; cases accepted
    | ok result =>
      rw [answered] at accepted
      cases accepted
      exact Prod.ext answered rfl
  have asTold := Machine.every_iff.mp every seatMoves (.startGame 1 1 plainMap) [] h next rfl path stepped room _ listed starts
  obtain ⟨state,number,known,told,equal⟩ := asTold.told 3 (by rw [members]; decide)
  obtain ⟨other,also,place⟩ := Option.map_eq_some_iff.mp seat
  cases known.symm.trans also
  cases told.symm.trans ticket
  rw [place] at equal
  exact absurd equal (by decide)

end Hall
end GameServer
