import GameServer.RoomIndex
import GameServer.RoomRoster

namespace GameServer.Lobby
open Foundation

-- What the server asks of the managers: nothing calls SetPlayerRoom, and a room
-- object is reached past its manager by its timer and by battle commands only.
def Event.managed : Event → Bool
  | .setPlayerRoom _ _ => false
  | .roomCall _ (.tick _) => true
  | .roomCall _ (.processCommand _ _) => true
  | .roomCall _ _ => false
  | _ => true

def only (allowed : Event → Bool) (events : List Event) : List { event : Event // allowed event = true } :=
  events.filterMap fun event => if held : allowed event = true then some ⟨event,held⟩ else none

def among (allowed : Event → Bool) (w : Lobby) (event : { event : Event // allowed event = true }) : Option Lobby :=
  w.step event.1

def recorded (w : Lobby) (id : UserId) : Option RoomId :=
  (w.getPlayer id).map fun player => GameRoom.recordOf w.heap player.object

-- Each id is registered with an object of its own.
structure Registry (w : Lobby) : Prop where
  named : ∀ id player, w.getPlayer id = some player → player.userId = id
  made : ∀ id player, w.getPlayer id = some player → player.object < w.nextObject
  apart : ∀ id other player another, w.getPlayer id = some player → w.getPlayer other = some another →
    player.object = another.object → id = other

structure Sound (w : Lobby) : Prop where
  registry : w.Registry
  listed : ∀ roomId room, w.getRoom roomId = some room → room.info.roomId = roomId
  seated : ∀ roomId room, w.getRoom roomId = some room → room.Seated

structure Called (w : Lobby) (roomId : RoomId) (op : GameRoom.Op) (room changed : GameRoom)
    (result : Except Thrown RoomReqResult) (next : Lobby) : Prop where
  found : w.getRoom roomId = some room
  performed : room.perform w.heap op = some (result,changed,next.heap)
  rooms : ∀ other, next.getRoom other = if other = roomId then some changed else w.getRoom other
  codes : next.manager.roomCodeMap = w.manager.roomCodeMap
  players : next.playerManager = w.playerManager
  objects : next.nextObject = w.nextObject

def newRoom (w : Lobby) (roomInfo : GameRoomInfo) (dist : Fin 6 → Fin 36) : GameRoom :=
  .create { roomInfo with roomId := w.manager.nextRoomId, roomCode := RoomUtils.genRoomCode dist }

-- A creation that marks its owner and is then refused, as its room takes nobody.
structure Bars (w : Lobby) (roomInfo : GameRoomInfo) : Prop where
  managed : w.manager.hasPlayerManager = true
  owner : ∃ player, w.getPlayer roomInfo.ownerId = some player ∧ player.userId ≠ 0
  lobby : roomInfo.state = .lobby
  room : roomInfo.capacity = 0

structure Rests (w : Lobby) (event : Event) (next : Lobby) : Prop where
  asks : ∀ roomId op, w.call event = some (roomId,op) → w.getRoom roomId = none
  creates : ∀ roomInfo dist, event = .createRoom roomInfo dist → ¬ w.Registers roomInfo ∧ ¬ w.Bars roomInfo
  dissolves : ∀ roomId playerId room, event = .dissolveRoom roomId playerId → w.getRoom roomId = some room →
    playerId ≠ room.info.ownerId
  rooms : ∀ other, next.getRoom other = w.getRoom other
  records : ∀ id roomId, next.recorded id = some roomId → roomId = 0 ∨ w.recorded id = some roomId

-- All that an event can do to the rooms and to what players have on record.
inductive Moves (w : Lobby) (event : Event) (next : Lobby) : Prop where
  | calls {roomId : RoomId} {op : GameRoom.Op} {room changed : GameRoom} {result : Except Thrown RoomReqResult}
      (asked : w.call event = some (roomId,op)) (called : Called w roomId op room changed result next)
  | enters {roomInfo : GameRoomInfo} {dist : Fin 6 → Fin 36} {player : GamePlayer} (creates : event = .createRoom roomInfo dist)
      (registers : w.Registers roomInfo) (owner : w.getPlayer roomInfo.ownerId = some player)
      (rooms : ∀ other, next.getRoom other =
        if other = w.manager.nextRoomId then some ((w.newRoom roomInfo dist).seat player) else w.getRoom other)
      (heap : next.heap = player.enterRoom w.heap w.manager.nextRoomId) (players : next.playerManager = w.playerManager)
  | bars {roomInfo : GameRoomInfo} {dist : Fin 6 → Fin 36} {player : GamePlayer} (creates : event = .createRoom roomInfo dist)
      (barred : w.Bars roomInfo) (owner : w.getPlayer roomInfo.ownerId = some player)
      (rooms : ∀ other, next.getRoom other = w.getRoom other)
      (heap : next.heap = player.enterRoom w.heap w.manager.nextRoomId) (players : next.playerManager = w.playerManager)
  | dissolves {roomId : RoomId} {playerId : UserId} {room : GameRoom} (dissolution : event = .dissolveRoom roomId playerId)
      (found : w.getRoom roomId = some room) (owner : playerId = room.info.ownerId)
      (rooms : ∀ other, next.getRoom other = if other = roomId then none else w.getRoom other)
      (heap : next.heap = w.heap) (players : next.playerManager = w.playerManager)
  | rests (idle : Rests w event next)

section Moving
variable {w next : Lobby} {event : Event}

theorem getPlayer_congr (players : next.playerManager = w.playerManager) (id : UserId) : next.getPlayer id = w.getPlayer id := by
  rw [getPlayer,getPlayer,players]

theorem recorded_congr (players : next.playerManager = w.playerManager)
    (heap : ∀ object, GameRoom.recordOf next.heap object = GameRoom.recordOf w.heap object) (id : UserId) :
    next.recorded id = w.recorded id := by
  unfold recorded
  rw [getPlayer_congr players]
  congr 1
  funext player
  exact heap player.object

theorem recorded_enters (registry : w.Registry) {id : UserId} {player : GamePlayer} {roomId : RoomId}
    (found : w.getPlayer id = some player) (players : next.playerManager = w.playerManager)
    (heap : next.heap = player.enterRoom w.heap roomId) (other : UserId) :
    next.recorded other = if other = id then some roomId else w.recorded other := by
  unfold recorded
  rw [getPlayer_congr players,heap]
  split
  · rename_i same
    rw [same,found,Option.map_some,GameRoom.enterRoom_record,if_pos rfl]
  · rename_i different
    cases known : w.getPlayer other with
    | none => rfl
    | some another =>
      have elsewhere : another.object ≠ player.object :=
        fun same => different (registry.apart other id another player known found same)
      rw [Option.map_some,Option.map_some,GameRoom.enterRoom_record,if_neg elsewhere]

theorem withRoom_called {roomId : RoomId} {op : GameRoom.Op} {result : Except Thrown RoomReqResult}
    (answered : w.withRoom roomId op = some (result,next)) :
    (w.getRoom roomId = none ∧ result = .ok .notFound ∧ next = w) ∨
      ∃ room changed, Called w roomId op room changed result next := by
  unfold withRoom at answered
  cases found : w.getRoom roomId with
  | none =>
    rw [found] at answered
    cases answered
    exact Or.inl ⟨rfl,rfl,rfl⟩
  | some room =>
    rw [found] at answered
    obtain ⟨⟨ended,changed,heap⟩,performed,same⟩ := Option.map_eq_some_iff.mp answered
    cases same
    refine Or.inr ⟨room,changed,found,performed,?_,rfl,rfl,rfl⟩
    intro other
    have entry : w.manager.rooms.lookup roomId = some room := found
    have modified := UnorderedMap.lookup_modify w.manager.rooms roomId other fun _ => changed
    rw [entry] at modified
    exact modified

theorem registry_congr (players : next.playerManager = w.playerManager) (objects : next.nextObject = w.nextObject)
    (registry : w.Registry) : next.Registry := by
  refine ⟨?_,?_,?_⟩
  · intro id player found
    exact registry.named id player ((getPlayer_congr players id).symm.trans found)
  · intro id player found
    rw [objects]
    exact registry.made id player ((getPlayer_congr players id).symm.trans found)
  · intro id other player another found known
    exact registry.apart id other player another ((getPlayer_congr players id).symm.trans found)
      ((getPlayer_congr players other).symm.trans known)

theorem createPlayer_fresh {playerId : UserId} (fresh : w.getPlayer playerId = none) : w.createPlayer playerId =
    (⟨w.nextObject,playerId⟩,{ w with
      playerManager := ⟨AList.insert playerId ⟨w.nextObject,playerId⟩ w.playerManager.players⟩
      heap := Function.update w.heap w.nextObject
        ⟨⟨playerId,0,stdString "player_" ++ stdString (toString playerId.toNat),0,false⟩,0,0,0,false⟩
      nextObject := w.nextObject + 1 }) := by
  have absent : w.playerManager.players.lookup playerId = none := fresh
  unfold createPlayer
  rw [absent]

theorem createPlayer_getPlayer (playerId other : UserId) (fresh : w.getPlayer playerId = none) :
    (w.createPlayer playerId).2.getPlayer other =
      if other = playerId then some ⟨w.nextObject,playerId⟩ else w.getPlayer other := by
  rw [createPlayer_fresh fresh]
  exact UnorderedMap.lookup_insert_eq _ _ _ _

theorem createPlayer_known {playerId : UserId} {player : GamePlayer} (found : w.getPlayer playerId = some player) :
    w.createPlayer playerId = (player,w) := by
  unfold createPlayer
  have present : w.playerManager.players.lookup playerId = some player := found
  rw [present]

theorem createPlayer_registry (playerId : UserId) (registry : w.Registry) : (w.createPlayer playerId).2.Registry := by
  cases known : w.getPlayer playerId with
  | some player => rw [createPlayer_known known]; exact registry
  | none =>
    have objects : (w.createPlayer playerId).2.nextObject = w.nextObject + 1 := by rw [createPlayer_fresh known]
    refine ⟨?_,?_,?_⟩
    · intro id player found
      rw [createPlayer_getPlayer playerId id known] at found
      split at found
      · rename_i same; cases found; exact same.symm
      · exact registry.named id player found
    · intro id player found
      rw [createPlayer_getPlayer playerId id known] at found
      rw [objects]
      split at found
      · cases found; exact Nat.lt_succ_self _
      · exact Nat.lt_succ_of_lt (registry.made id player found)
    · intro id other player another found listed same
      rw [createPlayer_getPlayer playerId id known] at found
      rw [createPlayer_getPlayer playerId other known] at listed
      split at found <;> split at listed
      · rename_i here there; rw [here,there]
      · cases found
        have below := registry.made other another listed
        rw [← same] at below
        exact (Nat.lt_irrefl _ below).elim
      · cases listed
        have below := registry.made id player found
        rw [same] at below
        exact (Nat.lt_irrefl _ below).elim
      · exact registry.apart id other player another found listed same

theorem createPlayer_recorded (playerId : UserId) (registry : w.Registry) (id : UserId) {roomId : RoomId}
    (found : (w.createPlayer playerId).2.recorded id = some roomId) : roomId = 0 ∨ w.recorded id = some roomId := by
  cases known : w.getPlayer playerId with
  | some player => rw [createPlayer_known known] at found; exact Or.inr found
  | none =>
    obtain ⟨player,listed,record⟩ := Option.map_eq_some_iff.mp found
    have heap : (w.createPlayer playerId).2.heap = Function.update w.heap w.nextObject
        ⟨⟨playerId,0,stdString "player_" ++ stdString (toString playerId.toNat),0,false⟩,0,0,0,false⟩ := by
      rw [createPlayer_fresh known]
    rw [createPlayer_getPlayer playerId id known] at listed
    unfold GameRoom.recordOf at record
    rw [heap,Function.update_apply] at record
    split at listed
    · cases listed
      rw [if_pos rfl] at record
      exact Or.inl record.symm
    · have below := registry.made id player listed
      rw [if_neg (Nat.ne_of_lt below)] at record
      exact Or.inr (Option.map_eq_some_iff.mpr ⟨player,listed,record⟩)

theorem setOnline_record (player : GamePlayer) (heap : Heap) (online : Bool) (object : Nat) :
    GameRoom.recordOf (player.setOnline heap online) object = GameRoom.recordOf heap object := by
  apply GameRoom.update_kept fun info => info.bInfo.currentGroupId
  intro info
  rfl

theorem setSession_record (player : GamePlayer) (heap : Heap) (sessionId : SessionId) (object : Nat) :
    GameRoom.recordOf (player.setSession heap sessionId) object = GameRoom.recordOf heap object := by
  apply GameRoom.update_kept fun info => info.bInfo.currentGroupId
  intro info
  rfl

theorem userLogin_moves (info : UserLoginInfo) (registry : w.Registry) :
    (w.onUserLogin info).Registry ∧
      ∀ id roomId, (w.onUserLogin info).recorded id = some roomId → roomId = 0 ∨ w.recorded id = some roomId := by
  unfold onUserLogin
  split
  · exact ⟨registry,fun _ _ found => Or.inr found⟩
  · have made := createPlayer_registry info.userId registry
    have records := createPlayer_recorded info.userId registry
    cases created : w.createPlayer info.userId with
    | mk player after =>
      rw [created] at made records
      refine ⟨?_,?_⟩
      · apply registry_congr _ _ made <;> rfl
      intro id roomId found
      refine records id (Eq.trans ?_ found)
      symm
      apply recorded_congr
      · rfl
      intro object
      exact (setOnline_record _ _ true object).trans (setSession_record _ _ info.sessionId object)

theorem userLogout_shape (info : UserLoginInfo) (real : info.userId ≠ 0) :
    ∃ heap : Heap, (∀ object, GameRoom.recordOf heap object = GameRoom.recordOf w.heap object) ∧
      w.onUserLogout info = { w.removePlayer info.userId with heap := heap } := by
  unfold onUserLogout
  rw [if_neg real]
  cases w.getPlayer info.userId with
  | none => exact ⟨w.heap,fun _ => rfl,rfl⟩
  | some player => exact ⟨_,setOnline_record player w.heap false,rfl⟩

theorem userLogout_moves (info : UserLoginInfo) (registry : w.Registry) :
    (w.onUserLogout info).Registry ∧
      ∀ id roomId, (w.onUserLogout info).recorded id = some roomId → roomId = 0 ∨ w.recorded id = some roomId := by
  have removed : ∀ id player, (w.removePlayer info.userId).getPlayer id = some player → w.getPlayer id = some player := by
    intro id player found
    unfold removePlayer at found
    rw [getPlayer,UnorderedMap.lookup_erase_eq] at found
    split at found
    · cases found
    · exact found
  by_cases real : info.userId = 0
  · unfold onUserLogout
    rw [if_pos real]
    exact ⟨registry,fun _ _ found => Or.inr found⟩
  · obtain ⟨heap,same,shape⟩ := userLogout_shape (w := w) info real
    rw [shape]
    refine ⟨⟨?_,?_,?_⟩,?_⟩
    · intro id player found
      exact registry.named id player (removed id player found)
    · intro id player found
      exact registry.made id player (removed id player found)
    · intro id other player another found known
      exact registry.apart id other player another (removed id player found) (removed other another known)
    · intro id roomId found
      obtain ⟨player,listed,record⟩ := Option.map_eq_some_iff.mp found
      exact Or.inr (Option.map_eq_some_iff.mpr ⟨player,removed id player listed,(same player.object).symm.trans record⟩)

theorem newRoom_receives {roomInfo : GameRoomInfo} {dist : Fin 6 → Fin 36} {player : GamePlayer} :
    (w.newRoom roomInfo dist).Receives player ↔ roomInfo.state = .lobby ∧ player.userId ≠ 0 := by
  have state : (w.newRoom roomInfo dist).info.state = roomInfo.state := rfl
  unfold GameRoom.Receives GameRoom.isRunning
  rw [state]
  cases roomInfo.state <;> simp

theorem newRoom_admits {roomInfo : GameRoomInfo} {dist : Fin 6 → Fin 36} {player : GamePlayer} :
    (w.newRoom roomInfo dist).Admits player ↔ (w.newRoom roomInfo dist).Receives player ∧ 0 < roomInfo.capacity := by
  refine ⟨fun admits => ⟨admits.1,admits.2.2⟩,?_⟩
  rintro ⟨receives,room⟩
  exact ⟨receives,List.not_mem_nil,room⟩

-- The manager a creation leaves when it takes an id and enters nothing.
def numbered (w : Lobby) : Lobby := { w with manager := { w.manager with nextRoomId := w.manager.nextRoomId + 1 } }

theorem createRoom_owned {roomInfo : GameRoomInfo} {dist : Fin 6 → Fin 36} {player : GamePlayer}
    (managed : w.manager.hasPlayerManager = true) (owner : w.getPlayer roomInfo.ownerId = some player) :
    w.createRoom roomInfo dist =
      let joined := (w.newRoom roomInfo dist).joinRoom w.heap (some player)
      if joined.1 ≠ .ok then ⟨joined.1,none,{ w.numbered with heap := joined.2.2 }⟩
      else ⟨.ok,some (RoomUtils.genRoomCode dist),{ w.numbered with
        manager := { w.numbered.manager with
          roomCodeMap := w.manager.roomCodeMap.insertNew (RoomUtils.genRoomCode dist) w.manager.nextRoomId
          rooms := AList.insert w.manager.nextRoomId joined.2.1 w.manager.rooms }
        heap := joined.2.2 }⟩ := by
  unfold createRoom
  dsimp only
  split
  · rename_i unmanaged
    simp [managed] at unmanaged
  · split
    · rename_i missing
      cases owner.symm.trans missing
    · rename_i other found
      cases owner.symm.trans found
      rfl

theorem createRoom_unowned {roomInfo : GameRoomInfo} (dist : Fin 6 → Fin 36)
    (unowned : w.manager.hasPlayerManager = true → w.getPlayer roomInfo.ownerId = none) :
    (w.createRoom roomInfo dist).lobby = w.numbered := by
  unfold createRoom
  dsimp only
  split
  · rfl
  · rename_i managed
    have missing : w.numbered.getPlayer roomInfo.ownerId = none := unowned (by simpa using managed)
    unfold numbered at missing
    rw [missing]
    rfl

theorem numbered_rests {roomInfo : GameRoomInfo} {dist : Fin 6 → Fin 36} (heap : Heap) (same : heap = w.heap)
    (registers : ¬ w.Registers roomInfo) (bars : ¬ w.Bars roomInfo) :
    Rests w (.createRoom roomInfo dist) { w.numbered with heap := heap } := by
  subst same
  refine ⟨nofun,?_,nofun,fun _ => rfl,fun _ _ found => Or.inr found⟩
  intro _ _ creates
  cases creates
  exact ⟨registers,bars⟩

theorem createRoom_moves (roomInfo : GameRoomInfo) (dist : Fin 6 → Fin 36) :
    Moves w (.createRoom roomInfo dist) (w.createRoom roomInfo dist).lobby := by
  by_cases owned : w.manager.hasPlayerManager = true ∧ ∃ player, w.getPlayer roomInfo.ownerId = some player
  · obtain ⟨managed,player,owner⟩ := owned
    have named {other : GamePlayer} (found : w.getPlayer roomInfo.ownerId = some other) : other = player :=
      Option.some.inj (found.symm.trans owner)
    rw [createRoom_owned managed owner]
    have joining := GameRoom.joinRoom_cases (w.newRoom roomInfo dist) w.heap player
    generalize (w.newRoom roomInfo dist).joinRoom w.heap (some player) = joined at joining
    cases joining with
    | turned closed refused =>
      have shut : ¬ (roomInfo.state = .lobby ∧ player.userId ≠ 0) := fun open_ => closed (newRoom_receives.mpr open_)
      dsimp only
      rw [if_pos refused]
      refine .rests (numbered_rests _ rfl ?_ ?_)
      · rintro ⟨-,⟨other,found,real⟩,lobby,-⟩
        exact shut ⟨lobby,named found ▸ real⟩
      · rintro ⟨-,⟨other,found,real⟩,lobby,-⟩
        exact shut ⟨lobby,named found ▸ real⟩
    | present receives member => exact (List.not_mem_nil member).elim
    | crowded receives fresh full =>
      obtain ⟨lobby,real⟩ := newRoom_receives.mp receives
      exact .bars rfl ⟨managed,⟨player,owner,real⟩,lobby,Nat.le_zero.mp full⟩ owner (fun _ => rfl) rfl rfl
    | admitted admits =>
      obtain ⟨receives,room⟩ := newRoom_admits.mp admits
      obtain ⟨lobby,real⟩ := newRoom_receives.mp receives
      refine .enters rfl ⟨managed,⟨player,owner,real⟩,lobby,room⟩ owner ?_ rfl rfl
      exact fun other => UnorderedMap.lookup_insert_eq w.manager.rooms w.manager.nextRoomId other _
  · have unowned : w.manager.hasPlayerManager = true → w.getPlayer roomInfo.ownerId = none := by
      intro managed
      rw [Option.eq_none_iff_forall_ne_some]
      exact fun player found => owned ⟨managed,player,found⟩
    rw [createRoom_unowned dist unowned]
    refine .rests (numbered_rests w.heap rfl ?_ ?_)
    · rintro ⟨managed,⟨player,found,-⟩,-,-⟩
      exact owned ⟨managed,player,found⟩
    · rintro ⟨managed,⟨player,found,-⟩,-,-⟩
      exact owned ⟨managed,player,found⟩

theorem dissolveRoom_cases (roomId : RoomId) (playerId : UserId) :
    Moves w (.dissolveRoom roomId playerId) (w.dissolveRoom roomId playerId).2 := by
  unfold dissolveRoom
  cases found : w.getRoom roomId with
  | none =>
    refine .rests ⟨nofun,nofun,?_,fun _ => rfl,fun _ _ held => Or.inr held⟩
    intro _ _ room dissolution listed
    cases dissolution
    cases found.symm.trans listed
  | some room =>
    dsimp only
    unfold GameRoom.dissolveRoom
    by_cases owner : playerId = room.info.ownerId
    · rw [if_neg (not_not.mpr owner)]
      exact .dissolves rfl found owner (fun other => UnorderedMap.lookup_erase_eq _ _ other) rfl rfl
    · rw [if_pos owner]
      refine .rests ⟨nofun,nofun,?_,?_,fun _ _ held => Or.inr held⟩
      · intro _ _ another dissolution listed
        cases dissolution
        cases found.symm.trans listed
        exact owner
      · intro other
        have entry : w.manager.rooms.lookup roomId = some room := found
        have modified := UnorderedMap.lookup_modify w.manager.rooms roomId other fun _ => room
        rw [entry] at modified
        refine modified.trans ?_
        split
        · rename_i here; rw [here]; exact found.symm
        · rfl

theorem call_else {roomId : RoomId} {op : GameRoom.Op} (asked : w.call event = some (roomId,op)) :
    (∀ roomInfo dist, event ≠ .createRoom roomInfo dist) ∧ ∀ roomId playerId, event ≠ .dissolveRoom roomId playerId := by
  refine ⟨?_,?_⟩
  · rintro roomInfo dist rfl
    cases asked
  · rintro other playerId rfl
    cases asked

theorem call_moves {roomId : RoomId} {op : GameRoom.Op} {result : Except Thrown RoomReqResult}
    (asked : w.call event = some (roomId,op)) (answered : w.withRoom roomId op = some (result,next)) : Moves w event next := by
  rcases withRoom_called answered with ⟨missing,-,rfl⟩ | ⟨room,changed,called⟩
  · refine .rests ⟨?_,?_,?_,fun _ => rfl,fun _ _ held => Or.inr held⟩
    · intro _ _ again
      cases asked.symm.trans again
      exact missing
    · exact fun roomInfo dist creation => ((call_else asked).1 roomInfo dist creation).elim
    · exact fun roomId playerId _ dissolution => ((call_else asked).2 roomId playerId dissolution).elim
  · exact .calls asked called

theorem call_joinRoom {roomId target : RoomId} {playerId : UserId} {op : GameRoom.Op} :
    w.call (.joinRoom roomId playerId) = some (target,op) ↔ w.manager.hasPlayerManager = true ∧
      ∃ player, w.getPlayer playerId = some player ∧ (roomId,GameRoom.Op.joinRoom (some player)) = (target,op) := by
  change (if w.manager.hasPlayerManager = true then
    (w.getPlayer playerId).map fun player => (roomId,GameRoom.Op.joinRoom (some player)) else none) = some (target,op) ↔ _
  by_cases managed : w.manager.hasPlayerManager = true
  · rw [if_pos managed,and_iff_right managed,Option.map_eq_some_iff]
  · rw [if_neg managed]
    exact iff_of_false nofun (fun both => managed both.1)

theorem joinRoom_moves {roomId : RoomId} {playerId : UserId} {result : Except Thrown RoomReqResult}
    (answered : w.joinRoom roomId playerId = some (result,next)) : Moves w (.joinRoom roomId playerId) next := by
  have rests : (∀ target op, w.call (.joinRoom roomId playerId) = some (target,op) → w.getRoom target = none) →
      Moves w (.joinRoom roomId playerId) w :=
    fun idle => .rests ⟨idle,nofun,nofun,fun _ => rfl,fun _ _ held => Or.inr held⟩
  unfold joinRoom at answered
  split at answered
  · rename_i missing
    cases answered
    apply rests
    intro target op asked
    obtain ⟨-,player,-,same⟩ := call_joinRoom.mp asked
    cases same
    exact missing
  · split at answered
    · rename_i unmanaged
      cases answered
      apply rests
      intro target op asked
      obtain ⟨managed,-⟩ := call_joinRoom.mp asked
      simp [managed] at unmanaged
    · rename_i manager
      split at answered
      · rename_i unknown
        cases answered
        apply rests
        intro target op asked
        obtain ⟨-,player,found,-⟩ := call_joinRoom.mp asked
        cases unknown.symm.trans found
      · rename_i player found
        have asked : w.call (.joinRoom roomId playerId) = some (roomId,.joinRoom (some player)) :=
          call_joinRoom.mpr ⟨by simpa using manager,player,found,rfl⟩
        exact call_moves asked answered

theorem aside_moves (silent : w.call event = none) (creates : ∀ roomInfo dist, event ≠ .createRoom roomInfo dist)
    (dissolves : ∀ roomId playerId, event ≠ .dissolveRoom roomId playerId) (manager : next.manager.rooms = w.manager.rooms)
    (records : ∀ id roomId, next.recorded id = some roomId → roomId = 0 ∨ w.recorded id = some roomId) :
    Moves w event next := by
  refine .rests ⟨?_,?_,?_,?_,records⟩
  · intro roomId op asked
    cases silent.symm.trans asked
  · exact fun roomInfo dist creation => (creates roomInfo dist creation).elim
  · exact fun roomId playerId _ dissolution => (dissolves roomId playerId dissolution).elim
  · intro other
    rw [getRoom,manager,getRoom]

theorem step_moves (registry : w.Registry) (managed : event.managed = true) (stepped : step w event = some next) :
    Moves w event next := by
  cases step_stepped stepped with
  | createRoom => exact createRoom_moves _ _
  | dissolveRoom => exact dissolveRoom_cases _ _
  | joinRoom answered => exact joinRoom_moves answered
  | calls asked answered => exact call_moves asked answered
  | @userLogin info =>
    exact aside_moves rfl (fun _ _ same => by cases same) (fun _ _ same => by cases same) (by rw [userLogin_manager])
      (userLogin_moves info registry).2
  | @userLogout info =>
    exact aside_moves rfl (fun _ _ same => by cases same) (fun _ _ same => by cases same) (by rw [userLogout_manager])
      (userLogout_moves info registry).2
  | setPlayerRoom => cases managed
  | setPlayerManager =>
    exact aside_moves rfl (fun _ _ same => by cases same) (fun _ _ same => by cases same) rfl (fun _ _ held => Or.inr held)

-- The calls the server makes: players join through their own registration, and
-- a room is dissolved by its manager only.
theorem call_joins {roomId : RoomId} {player : Option GamePlayer} (managed : event.managed = true)
    (asked : w.call event = some (roomId,.joinRoom player)) :
    ∃ id known, player = some known ∧ w.getPlayer id = some known := by
  cases event with
  | joinRoom target id =>
    obtain ⟨-,known,found,same⟩ := call_joinRoom.mp asked
    cases same
    exact ⟨id,known,rfl,found⟩
  | roomCall target op => cases asked; cases managed
  | _ => cases asked

theorem call_dissolves {roomId : RoomId} {playerId : UserId} (managed : event.managed = true) :
    w.call event ≠ some (roomId,.dissolveRoom playerId) := by
  intro asked
  cases event with
  | joinRoom target id =>
    obtain ⟨-,known,found,same⟩ := call_joinRoom.mp asked
    cases same
  | roomCall target op => cases asked; cases managed
  | _ => cases asked

theorem opened_sound (heap : Heap) : (opened heap).Sound := ⟨⟨nofun,nofun,nofun⟩,nofun,nofun⟩

theorem newRoom_ids (registry : w.Registry) {roomInfo : GameRoomInfo} {dist : Fin 6 → Fin 36} {player : GamePlayer}
    (owner : w.getPlayer roomInfo.ownerId = some player) :
    ((w.newRoom roomInfo dist).seat player).memberIds = [roomInfo.ownerId] := by
  rw [← registry.named _ _ owner]
  rfl

theorem newRoom_seated {roomInfo : GameRoomInfo} {dist : Fin 6 → Fin 36} {player : GamePlayer} (real : player.userId ≠ 0) :
    ((w.newRoom roomInfo dist).seat player).Seated :=
  GameRoom.change_seated (GameRoom.create_seated _) (.joined rfl rfl real List.not_mem_nil rfl)

theorem withRoom_players {roomId : RoomId} {op : GameRoom.Op} {result : Except Thrown RoomReqResult}
    (answered : w.withRoom roomId op = some (result,next)) :
    next.playerManager = w.playerManager ∧ next.nextObject = w.nextObject := by
  rcases withRoom_called answered with ⟨-,-,rfl⟩ | ⟨room,changed,called⟩
  · exact ⟨rfl,rfl⟩
  · exact ⟨called.players,called.objects⟩

theorem joinRoom_players {roomId : RoomId} {playerId : UserId} {result : Except Thrown RoomReqResult}
    (answered : w.joinRoom roomId playerId = some (result,next)) :
    next.playerManager = w.playerManager ∧ next.nextObject = w.nextObject := by
  unfold joinRoom at answered
  split at answered
  · cases answered; exact ⟨rfl,rfl⟩
  · split at answered
    · cases answered; exact ⟨rfl,rfl⟩
    · split at answered
      · cases answered; exact ⟨rfl,rfl⟩
      · exact withRoom_players answered

theorem createRoom_players (roomInfo : GameRoomInfo) (dist : Fin 6 → Fin 36) :
    (w.createRoom roomInfo dist).lobby.playerManager = w.playerManager ∧
      (w.createRoom roomInfo dist).lobby.nextObject = w.nextObject := by
  unfold createRoom
  dsimp only
  split
  · exact ⟨rfl,rfl⟩
  · split
    · exact ⟨rfl,rfl⟩
    · split <;> exact ⟨rfl,rfl⟩

theorem dissolveRoom_players (roomId : RoomId) (playerId : UserId) :
    (w.dissolveRoom roomId playerId).2.playerManager = w.playerManager ∧
      (w.dissolveRoom roomId playerId).2.nextObject = w.nextObject := by
  unfold dissolveRoom
  split
  · exact ⟨rfl,rfl⟩
  · dsimp only
    split <;> exact ⟨rfl,rfl⟩

theorem step_registry (registry : w.Registry) (managed : event.managed = true) (stepped : step w event = some next) :
    next.Registry := by
  have aside {after : Lobby} (same : after.playerManager = w.playerManager ∧ after.nextObject = w.nextObject) : after.Registry :=
    registry_congr same.1 same.2 registry
  cases step_stepped stepped with
  | createRoom => exact aside (createRoom_players _ _)
  | dissolveRoom => exact aside (dissolveRoom_players _ _)
  | joinRoom answered => exact aside (joinRoom_players answered)
  | calls asked answered => exact aside (withRoom_players answered)
  | @userLogin info => exact (userLogin_moves info registry).1
  | @userLogout info => exact (userLogout_moves info registry).1
  | setPlayerRoom => cases managed
  | setPlayerManager => exact aside ⟨rfl,rfl⟩

theorem moves_sound (sound : w.Sound) (registry : next.Registry) (moves : Moves w event next) : next.Sound := by
  have kept {other : RoomId} {room : GameRoom} (found : w.getRoom other = some room) : room.info.roomId = other ∧ room.Seated :=
    ⟨sound.listed other room found,sound.seated other room found⟩
  have all : ∀ other room, next.getRoom other = some room → room.info.roomId = other ∧ room.Seated := by
    intro other room found
    cases moves with
    | calls asked called =>
      rw [called.rooms] at found
      split at found
      · rename_i here
        cases found
        have change := GameRoom.perform_change called.performed
        rw [here,change.roomId]
        exact ⟨(kept called.found).1,GameRoom.change_seated (kept called.found).2 change⟩
      · exact kept found
    | enters creates registers owner rooms heap players =>
      rw [rooms] at found
      split at found
      · rename_i here
        cases found
        obtain ⟨player,found,real⟩ := registers.owner
        cases owner.symm.trans found
        exact ⟨here.symm,newRoom_seated real⟩
      · exact kept found
    | bars creates barred owner rooms heap players => rw [rooms] at found; exact kept found
    | dissolves dissolution listed owner rooms heap players =>
      rw [rooms] at found
      split at found
      · cases found
      · exact kept found
    | rests idle => rw [idle.rooms] at found; exact kept found
  exact ⟨registry,fun other room found => (all other room found).1,fun other room found => (all other room found).2⟩

-- The rule the laws about rooms go by: what holds of a state, and of the next
-- exactly under a guard, holds throughout exactly when every step meets the guard.
theorem always_guarded {allowed : Event → Bool} (managed : ∀ event, allowed event = true → event.managed = true)
    {good : Lobby → Prop} {guard : Lobby → Event → Prop}
    (agree : ∀ w event next, Sound w → allowed event = true → good w → Moves w event next → (good next ↔ guard w event))
    {heap : Heap} (start : good (opened heap)) (events : List { event : Event // allowed event = true }) :
    Machine.Always (among allowed) good (opened heap) events ↔
      Machine.Every (among allowed) (fun w event _ => guard w event.1) (opened heap) events := by
  refine Machine.always_iff_guarded ?_ ?_ (opened_sound heap) start
  · intro w event next sound _ stepped _
    have may := managed event.1 event.2
    exact moves_sound sound (step_registry sound.registry may stepped) (step_moves sound.registry may stepped)
  · intro w event next sound holds stepped
    exact agree w event.1 next sound event.2 holds (step_moves sound.registry (managed event.1 event.2) stepped)

end Moving
end GameServer.Lobby
