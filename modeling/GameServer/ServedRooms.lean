import GameServer.JsonTranslator
import GameServer.LobbySteps

namespace GameServer.Lobby
open Foundation Json JSONTranslator

def nameOf (heap : Heap) (object : Nat) : StdString := (heap object).bInfo.userName

-- A room as the create request of a client makes it.
structure Housed (objects : Nat) (room : GameRoom) : Prop where
  capacity : room.group.capacity = 4
  few : room.group.members.length ≤ 4
  members : ∀ player ∈ room.group.members, player.object < objects
  code : ValidText room.info.roomCode ∧ room.info.roomCode.length = 6
  path : room.info.selectedMapPath = stdString "default_map.json"
  name : room.info.roomName.length ≤ 255
  password : room.info.password.length ≤ 255

-- The managers as logins, creations and joins alone leave them.
structure Served (w : Lobby) : Prop where
  managed : w.manager.hasPlayerManager = true
  registry : w.Registry
  named : ∀ object, object < w.nextObject → ValidText (nameOf w.heap object) ∧ (nameOf w.heap object).length ≤ 255
  rooms : ∀ roomId room, w.getRoom roomId = some room → Housed w.nextObject room
  codes : ∀ code roomId, w.roomCodeToId code = some roomId → code.length = 6 ∧ ∃ room, w.getRoom roomId = some room

section Names

theorem enterRoom_name (player : GamePlayer) (heap : Heap) (roomId : RoomId) (object : Nat) :
    nameOf (player.enterRoom heap roomId) object = nameOf heap object := by
  apply GameRoom.update_kept fun info => info.bInfo.userName
  intro info
  rfl

theorem chars_ascii : ∀ i : Fin 36, RoomUtils.chars.getD i.val 0 < 128 := by decide +kernel

theorem roomCode_plain (dist : Fin 6 → Fin 36) :
    ValidText (RoomUtils.genRoomCode dist) ∧ (RoomUtils.genRoomCode dist).length = 6 := by
  refine ⟨?_,?_⟩
  · apply validText_ascii
    intro byte member
    obtain ⟨i,-,rfl⟩ := List.mem_map.mp member
    exact chars_ascii (dist i)
  · rw [RoomUtils.genRoomCode,List.length_map,List.length_finRange]

theorem playerName_plain (playerId : UserId) :
    ValidText (stdString "player_" ++ stdString (toString playerId.toNat)) ∧
      (stdString "player_" ++ stdString (toString playerId.toNat)).length ≤ 255 := by
  refine ⟨validText_append (stdString_valid _) (stdString_valid _),?_⟩
  have bound := UInt32.toNat_lt playerId
  have digits := Nat.toDigits_length 10 playerId.toNat 10 (by decide) (by omega)
  have short : (toString playerId.toNat).length ≤ 10 := by simpa [Nat.toString_eq_repr,Nat.repr] using digits
  have word : (stdString "player_").length ≤ 4 * 7 := stdString_length "player_"
  have number := stdString_length (toString playerId.toNat)
  rw [List.length_append]
  omega

end Names

section Serving
variable {w next : Lobby}

theorem Housed.mono {objects more : Nat} {room : GameRoom} (housed : Housed objects room) (grown : objects ≤ more) :
    Housed more room :=
  { housed with members := fun player member => Nat.lt_of_lt_of_le (housed.members player member) grown }

theorem seat_housed {room : GameRoom} {player : GamePlayer} {objects : Nat} (housed : Housed objects room)
    (admits : room.Admits player) (made : player.object < objects) : Housed objects (room.seat player) := by
  have space := admits.2.2
  rw [housed.capacity] at space
  refine ⟨housed.capacity,?_,?_,housed.code,housed.path,housed.name,housed.password⟩
  · rw [GameRoom.seat,List.length_append,List.length_singleton]
    exact space
  · intro other member
    rcases List.mem_append.mp member with old | new
    · exact housed.members other old
    · rw [List.mem_singleton.mp new]
      exact made

-- What a client may choose about a room it asks for.
structure Asked (roomInfo : GameRoomInfo) : Prop where
  lobby : roomInfo.state = .lobby
  capacity : roomInfo.capacity = 4
  path : roomInfo.selectedMapPath = stdString "default_map.json"
  name : roomInfo.roomName.length ≤ 255
  password : roomInfo.password.length ≤ 255

theorem newRoom_housed {roomInfo : GameRoomInfo} (dist : Fin 6 → Fin 36) (asked : Asked roomInfo) (objects : Nat) :
    Housed objects (w.newRoom roomInfo dist) :=
  ⟨asked.capacity,Nat.zero_le _,fun _ member => (List.not_mem_nil member).elim,roomCode_plain dist,asked.path,asked.name,
    asked.password⟩

def withNew (w : Lobby) (roomInfo : GameRoomInfo) (dist : Fin 6 → Fin 36) (player : GamePlayer) : Lobby := { w.numbered with
  manager := { w.numbered.manager with
    roomCodeMap := w.manager.roomCodeMap.insertNew (RoomUtils.genRoomCode dist) w.manager.nextRoomId
    rooms := AList.insert w.manager.nextRoomId ((w.newRoom roomInfo dist).seat player) w.manager.rooms }
  heap := player.enterRoom w.heap w.manager.nextRoomId }

-- The two ways a creation asked for by a client ends.
inductive Creating (w : Lobby) (roomInfo : GameRoomInfo) (dist : Fin 6 → Fin 36) : Created → Prop where
  | refused {result : RoomReqResult} (unregistered : ¬ w.Registers roomInfo) (failed : result ≠ .ok) :
      Creating w roomInfo dist ⟨result,none,w.numbered⟩
  | registered {player : GamePlayer} (registers : w.Registers roomInfo) (owner : w.getPlayer roomInfo.ownerId = some player)
      (admits : (w.newRoom roomInfo dist).Admits player) :
      Creating w roomInfo dist ⟨.ok,some (RoomUtils.genRoomCode dist),w.withNew roomInfo dist player⟩

theorem createRoom_creating {roomInfo : GameRoomInfo} (asked : Asked roomInfo) (managed : w.manager.hasPlayerManager = true)
    (dist : Fin 6 → Fin 36) : Creating w roomInfo dist (w.createRoom roomInfo dist) := by
  cases owner : w.getPlayer roomInfo.ownerId with
  | none =>
    have unowned : w.createRoom roomInfo dist = ⟨.notAuthorized,none,w.numbered⟩ := by
      have missing : w.numbered.getPlayer roomInfo.ownerId = none := owner
      unfold createRoom
      dsimp only
      rw [if_neg (by simp [managed])]
      unfold numbered at missing
      rw [missing]
      rfl
    rw [unowned]
    refine .refused ?_ (by decide)
    rintro ⟨-,⟨player,found,-⟩,-,-⟩
    cases owner.symm.trans found
  | some player =>
    rw [createRoom_owned managed owner]
    have joining := GameRoom.joinRoom_cases (w.newRoom roomInfo dist) w.heap player
    generalize (w.newRoom roomInfo dist).joinRoom w.heap (some player) = joined at joining
    cases joining with
    | turned closed failed =>
      dsimp only
      rw [if_pos failed]
      refine .refused ?_ failed
      rintro ⟨-,⟨other,found,real⟩,-,-⟩
      cases owner.symm.trans found
      exact closed (newRoom_receives.mpr ⟨asked.lobby,real⟩)
    | present receives member => exact (List.not_mem_nil member).elim
    | crowded receives fresh full =>
      have capacity : (w.newRoom roomInfo dist).group.capacity = 4 := asked.capacity
      rw [capacity] at full
      exact absurd (Nat.le_zero.mp full) (by decide)
    | admitted admits =>
      obtain ⟨receives,room⟩ := newRoom_admits.mp admits
      exact .registered ⟨managed,⟨player,owner,receives.2⟩,asked.lobby,room⟩ owner admits

theorem numbered_served (served : w.Served) : w.numbered.Served :=
  ⟨served.managed,by apply registry_congr _ _ served.registry <;> rfl,served.named,served.rooms,served.codes⟩

theorem withNew_getRoom {roomInfo : GameRoomInfo} {dist : Fin 6 → Fin 36} {player : GamePlayer} (other : RoomId) :
    (w.withNew roomInfo dist player).getRoom other =
      if other = w.manager.nextRoomId then some ((w.newRoom roomInfo dist).seat player) else w.getRoom other :=
  UnorderedMap.lookup_insert_eq w.manager.rooms _ other _

theorem withNew_code (roomInfo : GameRoomInfo) (dist : Fin 6 → Fin 36) (player : GamePlayer) (other : StdString) :
    (w.withNew roomInfo dist player).roomCodeToId other = if other = RoomUtils.genRoomCode dist
      then some ((w.roomCodeToId (RoomUtils.genRoomCode dist)).getD w.manager.nextRoomId) else w.roomCodeToId other :=
  UnorderedMap.lookup_insertNew w.manager.roomCodeMap _ other _

theorem withNew_served {roomInfo : GameRoomInfo} {dist : Fin 6 → Fin 36} {player : GamePlayer} (served : w.Served)
    (asked : Asked roomInfo) (owner : w.getPlayer roomInfo.ownerId = some player)
    (admits : (w.newRoom roomInfo dist).Admits player) : (w.withNew roomInfo dist player).Served := by
  have made := served.registry.made _ _ owner
  refine ⟨served.managed,by apply registry_congr _ _ served.registry <;> rfl,?_,?_,?_⟩
  · intro object known
    have name : nameOf (w.withNew roomInfo dist player).heap object = nameOf w.heap object := enterRoom_name player w.heap _ object
    rw [name]
    exact served.named object known
  · intro roomId room found
    rw [withNew_getRoom] at found
    split at found
    · cases found
      exact seat_housed (newRoom_housed dist asked _) admits made
    · exact served.rooms roomId room found
  · intro code roomId found
    have listed (other : RoomId) (led : ∃ room, w.getRoom other = some room) :
        ∃ room, (w.withNew roomInfo dist player).getRoom other = some room := by
      rw [withNew_getRoom]
      split
      · exact ⟨_,rfl⟩
      · exact led
    rw [withNew_code] at found
    split at found
    · rename_i same
      refine ⟨by rw [same]; exact (roomCode_plain dist).2,?_⟩
      cases known : w.roomCodeToId (RoomUtils.genRoomCode dist) with
      | none =>
        rw [known] at found
        cases found
        exact ⟨_,(withNew_getRoom _).trans (if_pos rfl)⟩
      | some old =>
        rw [known] at found
        cases found
        exact listed _ (served.codes _ _ known).2
    · obtain ⟨size,led⟩ := served.codes code roomId found
      exact ⟨size,listed _ led⟩

def rehoused (w : Lobby) (roomId : RoomId) (room : GameRoom) (heap : Heap) : Lobby := { w with
  manager := { w.manager with rooms := w.manager.rooms.modify roomId fun _ => room }
  heap := heap }

theorem rehoused_getRoom {roomId : RoomId} {old room : GameRoom} {heap : Heap} (listed : w.getRoom roomId = some old)
    (other : RoomId) : (w.rehoused roomId room heap).getRoom other = if other = roomId then some room else w.getRoom other := by
  have modified := UnorderedMap.lookup_modify w.manager.rooms roomId other fun _ => room
  have entry : w.manager.rooms.lookup roomId = some old := listed
  rw [entry] at modified
  exact modified

theorem rehoused_served {roomId : RoomId} {old room : GameRoom} {heap : Heap} (served : w.Served)
    (listed : w.getRoom roomId = some old) (housed : Housed w.nextObject room)
    (names : ∀ object, nameOf heap object = nameOf w.heap object) : (w.rehoused roomId room heap).Served := by
  refine ⟨served.managed,by apply registry_congr _ _ served.registry <;> rfl,?_,?_,?_⟩
  · intro object known
    have name : nameOf (w.rehoused roomId room heap).heap object = nameOf w.heap object := names object
    rw [name]
    exact served.named object known
  · intro other another found
    rw [rehoused_getRoom listed] at found
    split at found
    · cases found; exact housed
    · exact served.rooms other another found
  · intro code other found
    obtain ⟨size,another,led⟩ := served.codes code other found
    refine ⟨size,?_⟩
    rw [rehoused_getRoom listed]
    split
    · exact ⟨room,rfl⟩
    · exact ⟨another,led⟩

structure Enters (w : Lobby) (roomId : RoomId) (playerId : UserId) (room : GameRoom) (player : GamePlayer) : Prop where
  listed : w.getRoom roomId = some room
  known : w.getPlayer playerId = some player
  admits : room.Admits player

-- The three ways a join ends: refused with the rooms untouched, refused by the
-- room itself, which may have marked the player by then, and done.
inductive Entering (w : Lobby) (roomId : RoomId) (playerId : UserId) : Option (Except Thrown RoomReqResult × Lobby) → Prop where
  | refused {result : RoomReqResult} (failed : result ≠ .ok) (kept : ∀ room player, ¬ w.Enters roomId playerId room player) :
      Entering w roomId playerId (some (.ok result,w))
  | turned {result : RoomReqResult} {room : GameRoom} {heap : Heap} (failed : result ≠ .ok)
      (kept : ∀ room player, ¬ w.Enters roomId playerId room player) (listed : w.getRoom roomId = some room)
      (names : ∀ object, nameOf heap object = nameOf w.heap object) :
      Entering w roomId playerId (some (.ok result,w.rehoused roomId room heap))
  | entered {room : GameRoom} {player : GamePlayer} (enters : w.Enters roomId playerId room player) :
      Entering w roomId playerId (some (.ok .ok,w.rehoused roomId (room.seat player) (player.enterRoom w.heap room.info.roomId)))

theorem joinRoom_entering (managed : w.manager.hasPlayerManager = true) (roomId : RoomId) (playerId : UserId) :
    Entering w roomId playerId (w.joinRoom roomId playerId) := by
  unfold joinRoom
  cases listed : w.getRoom roomId with
  | none => exact .refused (by decide) (fun _ _ enters => by cases listed.symm.trans enters.listed)
  | some room =>
    dsimp only
    rw [if_neg (by simp [managed])]
    cases known : w.getPlayer playerId with
    | none => exact .refused (by decide) (fun _ _ enters => by cases known.symm.trans enters.known)
    | some player =>
      have joining := GameRoom.joinRoom_cases room w.heap player
      have shut (closed : ¬ room.Admits player) : ∀ other another, ¬ w.Enters roomId playerId other another := by
        intro other another enters
        cases listed.symm.trans enters.listed
        cases known.symm.trans enters.known
        exact closed enters.admits
      have called : w.withRoom roomId (.joinRoom (some player)) =
          let out := room.joinRoom w.heap (some player)
          some (.ok out.1,w.rehoused roomId out.2.1 out.2.2) := by
        unfold withRoom
        rw [listed]
        rfl
      dsimp only
      rw [called]
      dsimp only
      generalize room.joinRoom w.heap (some player) = joined at joining
      cases joining with
      | turned closed failed => exact .turned failed (shut fun admits => closed admits.1) listed (fun _ => rfl)
      | present receives member =>
        exact .turned nofun (shut fun admits => admits.2.1 member) listed (enterRoom_name player w.heap _)
      | crowded receives fresh full =>
        exact .turned nofun (shut fun admits => absurd admits.2.2 (Nat.not_lt.mpr full)) listed
          (enterRoom_name player w.heap _)
      | admitted admits => exact .entered ⟨listed,known,admits⟩

theorem joinRoom_unmanaged (unmanaged : w.manager.hasPlayerManager = false) (roomId : RoomId) (playerId : UserId) :
    ∃ result, result ≠ .ok ∧ w.joinRoom roomId playerId = some (.ok result,w) := by
  unfold joinRoom
  split
  · exact ⟨.notFound,by decide,rfl⟩
  · rw [if_pos (by simp [unmanaged])]
    exact ⟨.unknownError,by decide,rfl⟩

theorem rehoused_same {roomId : RoomId} {room : GameRoom} {heap : Heap} (listed : w.getRoom roomId = some room)
    (other : RoomId) : (w.rehoused roomId room heap).getRoom other = w.getRoom other := by
  rw [rehoused_getRoom listed]
  split
  · rename_i same
    rw [same,listed]
  · rfl

theorem entering_served {roomId : RoomId} {playerId : UserId} {result : Except Thrown RoomReqResult} (served : w.Served)
    (entering : Entering w roomId playerId (some (result,next))) : next.Served := by
  cases entering with
  | refused failed kept => exact served
  | turned failed kept listed names => exact rehoused_served served listed (served.rooms _ _ listed) names
  | entered enters =>
    have housed := served.rooms _ _ enters.listed
    have made := served.registry.made _ _ enters.known
    exact rehoused_served served enters.listed (seat_housed housed enters.admits made) (enterRoom_name _ w.heap _)

theorem createPlayer_served (playerId : UserId) (served : w.Served) : (w.createPlayer playerId).2.Served := by
  cases known : w.getPlayer playerId with
  | some player => rw [createPlayer_known known]; exact served
  | none =>
    have registry := createPlayer_registry playerId served.registry
    rw [createPlayer_fresh known] at registry ⊢
    refine ⟨served.managed,registry,?_,?_,served.codes⟩
    · intro object below
      unfold nameOf
      dsimp only
      rw [Function.update_apply]
      split
      · exact playerName_plain playerId
      · rename_i other
        exact served.named object (Nat.lt_of_le_of_ne (Nat.le_of_lt_succ below) other)
    · exact fun roomId room found => (served.rooms roomId room found).mono (Nat.le_succ _)

theorem userLogin_served (info : UserLoginInfo) (served : w.Served) : (w.onUserLogin info).Served := by
  unfold onUserLogin
  split
  · exact served
  · have created := createPlayer_served info.userId served
    generalize w.createPlayer info.userId = made at created
    obtain ⟨player,after⟩ := made
    refine ⟨created.managed,by apply registry_congr _ _ created.registry <;> rfl,?_,created.rooms,created.codes⟩
    intro object below
    have online : nameOf (player.setOnline (player.setSession after.heap info.sessionId) true) object =
        nameOf (player.setSession after.heap info.sessionId) object := by
      apply GameRoom.update_kept fun info => info.bInfo.userName
      intro info
      rfl
    have session : nameOf (player.setSession after.heap info.sessionId) object = nameOf after.heap object := by
      apply GameRoom.update_kept fun info => info.bInfo.userName
      intro info
      rfl
    dsimp only
    rw [online,session]
    exact created.named object below

theorem opened_served (heap : Heap) : Served { heap, manager := { hasPlayerManager := true } } :=
  ⟨rfl,⟨nofun,nofun,nofun⟩,nofun,nofun,nofun⟩

def Spoken (room : GameRoom) : Prop := ValidText room.info.roomName ∧ ValidText room.info.password

theorem roomInfo_plain {roomId : RoomId} {room : GameRoom} (served : w.Served) (listed : w.getRoom roomId = some room) :
    ((roomInfo (room.getAllInfo w.heap)).spoken = true ↔ Spoken room) ∧
      (roomInfo (room.getAllInfo w.heap)).bulk ≤ 4 * (6 * 255 + 2601) + (24 * 255 + 16000) := by
  have housed := served.rooms _ _ listed
  have names : ∀ player ∈ (room.getAllInfo w.heap).players,
      ValidText player.bInfo.userName ∧ player.bInfo.userName.length ≤ 255 := by
    intro player member
    obtain ⟨seated,inside,rfl⟩ := List.mem_map.mp member
    exact served.named seated.object (housed.members seated inside)
  have path : (room.getAllInfo w.heap).selectedMapPath = stdString "default_map.json" := housed.path
  have short := stdString_length "default_map.json"
  have sixteen : "default_map.json".length = 16 := rfl
  refine ⟨?_,?_⟩
  · rw [roomInfo_spoken,path]
    refine ⟨fun all => ⟨all.2.2.1,all.2.2.2.1⟩,?_⟩
    intro spoken
    exact ⟨fun player member => (names player member).1,housed.code.1,spoken.1,spoken.2,stdString_valid _⟩
  · apply roomInfo_bulk
    · rw [GameRoom.getAllInfo,List.length_map]
      exact housed.few
    · exact fun player member => (names player member).2
    · have code : (room.getAllInfo w.heap).roomCode.length = 6 := housed.code.2
      omega
    · exact housed.name
    · exact housed.password
    · rw [path]
      omega

-- The room the code of a creation leads to once the creation is entered: the
-- new one, unless the code was drawn before.
def announced (w : Lobby) (roomInfo : GameRoomInfo) (dist : Fin 6 → Fin 36) : GameRoom :=
  match w.roomCodeToId (RoomUtils.genRoomCode dist) with
  | none => w.newRoom roomInfo dist
  | some roomId =>
    if roomId = w.manager.nextRoomId then w.newRoom roomInfo dist else (w.getRoom roomId).getD (w.newRoom roomInfo dist)

theorem withNew_announced {roomInfo : GameRoomInfo} {dist : Fin 6 → Fin 36} (player : GamePlayer) (served : w.Served) :
    ∃ roomId room, (w.withNew roomInfo dist player).roomCodeToId (RoomUtils.genRoomCode dist) = some roomId ∧
      (w.withNew roomInfo dist player).getRoom roomId = some room ∧ (Spoken room ↔ Spoken (w.announced roomInfo dist)) := by
  have code := withNew_code (w := w) roomInfo dist player (RoomUtils.genRoomCode dist)
  rw [if_pos rfl] at code
  unfold announced
  cases known : w.roomCodeToId (RoomUtils.genRoomCode dist) with
  | none =>
    rw [known] at code
    exact ⟨_,_,code,(withNew_getRoom _).trans (if_pos rfl),Iff.rfl⟩
  | some roomId =>
    rw [known] at code
    obtain ⟨-,room,listed⟩ := served.codes _ _ known
    dsimp only
    by_cases reused : roomId = w.manager.nextRoomId
    · rw [if_pos reused]
      exact ⟨_,_,code,(withNew_getRoom _).trans (if_pos reused),Iff.rfl⟩
    · rw [if_neg reused,listed]
      exact ⟨_,room,code,(withNew_getRoom _).trans ((if_neg reused).trans listed),Iff.rfl⟩

end Serving
end GameServer.Lobby
