import GameServer.Server

namespace GameServer
open Foundation RequestPayload

-- The requests whose payload a handler takes apart.
inductive Request where
  | login | create | join | leave
deriving DecidableEq

namespace Request

def reading (past : Nat → UInt8) (payload : List UInt8) : Request → Reading
  | .login => readPair past payload
  | .create => readPair past payload
  | .join => readJoin past payload
  | .leave => readLeave

def handle (library : JsonLibrary) (s : Server) (turn : Turn) (pack : MsgPack) : Request → Server.Outcome
  | .login => s.handleLoginRequest turn pack
  | .create => s.handleRoomCreateRequest library turn pack
  | .join => s.handleRoomJoinRequest library turn pack
  | .leave => s.handleRoomLeaveRequest turn pack

def WellFormed (payload : List UInt8) : Request → Prop
  | .login => ∃ first second, StartsWith payload first second
  | .create => ∃ first second, StartsWith payload first second
  | .join => 6 ≤ payload.length
  | .leave => 6 ≤ payload.length

-- Nobody logs in, and no room is created, entered or left.
structure Idle (s after : Server) : Prop where
  users : after.users = s.users
  players : after.lobby.playerManager = s.lobby.playerManager
  rooms : after.lobby.manager.rooms = s.lobby.manager.rooms
  codes : after.lobby.manager.roomCodeMap = s.lobby.manager.roomCodeMap

-- The handler reads inside the payload, acts on the two strings alone where it
-- takes strings, and does nothing on a malformed payload.
structure Strict (request : Request) (past : Nat → UInt8) (payload : List UInt8) : Prop where
  inside : (request.reading past payload).inside payload
  strings : request = .login ∨ request = .create → ∀ first second, StartsWith payload first second →
    (request.reading past payload).first = first ∧ (request.reading past payload).second = second
  alike : request = .login ∨ request = .create → ∀ first second, StartsWith payload first second →
    ∀ library s turn pack elsewhere, turn.past = past → pack.msg.payload = payload →
      request.handle library s turn pack = request.handle library s { turn with past := elsewhere }
        { pack with msg := { pack.msg with payload := spelled first second } }
  idle : ¬ request.WellFormed payload → ∀ library s turn pack, turn.past = past → pack.msg.payload = payload →
    Idle s (request.handle library s turn pack).server

section Bounds
variable {request : Request} {past : Nat → UInt8} {payload : List UInt8}

theorem reading_inside : (request.reading past payload).inside payload ↔ request.WellFormed payload := by
  have pair : (readPair past payload).inside payload ↔ ∃ first second, StartsWith payload first second := by
    refine ⟨fun inside => ⟨_,_,readPair_inside inside⟩,?_⟩
    rintro ⟨first,second,starts⟩
    exact (readPair_reads past starts).2.2
  cases request with
  | login => exact pair
  | create => exact pair
  | join => exact readJoin_inside
  | leave => exact readLeave_inside

theorem handle_alike (pairs : request = .login ∨ request = .create) {first second : List UInt8} {pack : MsgPack}
    (starts : StartsWith pack.msg.payload first second) (library : JsonLibrary) (s : Server) (turn : Turn)
    (elsewhere : Nat → UInt8) :
    request.handle library s turn pack = request.handle library s { turn with past := elsewhere }
      { pack with msg := { pack.msg with payload := spelled first second } } := by
  obtain ⟨first_,second_,-⟩ := readPair_reads turn.past starts
  obtain ⟨spelledFirst,spelledSecond,-⟩ := readPair_reads elsewhere (spelled_starts starts.1 starts.2.1)
  have filled := startsWith_filled starts
  have filledSpelled := startsWith_filled (spelled_starts starts.1 starts.2.1)
  rcases pairs with rfl | rfl
  · dsimp only [handle]
    unfold Server.handleLoginRequest
    rw [if_neg filled,if_neg filledSpelled]
    dsimp only
    rw [first_,spelledFirst]
    rfl
  · dsimp only [handle]
    unfold Server.handleRoomCreateRequest Server.requestedRoom
    rw [if_neg filled,if_neg filledSpelled]
    dsimp only
    rw [first_,second_,spelledFirst,spelledSecond]
    rfl

end Bounds

-- A handler parses strictly exactly the payloads that are well formed.
theorem strict_exact (request : Request) (past : Nat → UInt8) (payload : List UInt8) :
    request.Strict past payload ↔ request.WellFormed payload := by
  refine ⟨fun strict => reading_inside.mp strict.inside,?_⟩
  intro wellFormed
  refine ⟨reading_inside.mpr wellFormed,?_,?_,fun malformed => (malformed wellFormed).elim⟩
  · rintro (rfl | rfl) first second starts
    · exact ⟨(readPair_reads past starts).1,(readPair_reads past starts).2.1⟩
    · exact ⟨(readPair_reads past starts).1,(readPair_reads past starts).2.1⟩
  · intro pairs first second starts library s turn pack elsewhere _ sent
    rw [← sent] at starts
    exact handle_alike pairs starts library s turn elsewhere

end Request

-- A login request that ends behind the length of its empty name.
def shortLogin : MsgPack := ⟨0,1,0,⟨7,ProtoType.data,MsgType.loginReq,0,[0]⟩⟩

-- The length of the password is read behind the payload, and the login succeeds.
theorem short_login_accepted : ¬ Request.Strict .login (fun _ => 0) shortLogin.msg.payload ∧
    ((Server.start Lobby.noInfos).handleLoginRequest Server.blankTurn shortLogin).server.users.getUserId 1 = 123 := by
  refine ⟨?_,by decide +kernel⟩
  intro strict
  have read := strict.inside 1 (List.mem_cons_of_mem _ (List.mem_cons_self ..))
  exact absurd read (by decide)

end GameServer
