import GameServer.Foundation.FirstCome
import GameServer.Broadcasts
import GameServer.FoyerRuns

namespace GameServer
open Foundation

def Table.seat (table : Table) (askers : List UserId) : Table :=
  { table with guests := askers.foldl (FirstCome.accept 4) table.guests }

namespace Foyer

def learn (known : UserId → Bool) : Request → UserId → Bool
  | .login userId => if userId = 0 then known else Function.update known userId true
  | _ => known

def asksFor (code : StdString) (known : UserId → Bool) : Request → List UserId
  | .join userId asked => if asked = code ∧ known userId then [userId] else []
  | _ => []

def askers (code : StdString) (known : UserId → Bool) : List Request → List UserId
  | [] => []
  | request :: rest => asksFor code known request ++ askers code (learn known request) rest

section Seats
variable {f : Foyer} {created : Nat} {roomId place : RoomId} {table : Table} {request : Request}

theorem serve_known (f : Foyer) (request : Request) : (f.serve request).known = learn f.known request := by
  cases request with
  | login userId =>
    unfold serve learn
    dsimp only
    split <;> rfl
  | create owner name password code =>
    unfold serve
    dsimp only
    split <;> rfl
  | join userId code =>
    unfold serve
    dsimp only
    split
    · rfl
    · rename_i roomId _
      rcases joinAt_cases f roomId userId with same | ⟨_,_,_,_,_,joined⟩
      · rw [same]
        rfl
      · rw [joined]
        rfl
  | nothing => rfl

theorem joinAt_seats (found : f.tables roomId = some table) (userId : UserId) :
    (f.joinAt roomId userId).tables roomId = some (table.seat (if f.known userId then [userId] else [])) := by
  unfold joinAt Table.seat
  rw [found]
  dsimp only
  cases known : f.known userId with
  | false => simpa using found
  | true =>
    simp only [true_and,if_true,List.foldl_cons,List.foldl_nil,FirstCome.accept]
    split
    · exact Function.update_self ..
    · exact found

theorem joinAt_elsewhere (elsewhere : roomId ≠ place) (userId : UserId) :
    (f.joinAt place userId).tables roomId = f.tables roomId := by
  rcases joinAt_cases f place userId with same | ⟨_,_,_,_,_,joined⟩
  · rw [same]
  · rw [joined]
    exact Function.update_of_ne elsewhere _ _

theorem joinAt_codes (userId : UserId) : (f.joinAt place userId).codes = f.codes := by
  rcases joinAt_cases f place userId with same | ⟨_,_,_,_,_,joined⟩ <;> simp [*]

theorem serve_table (orderly : Orderly f created) (found : f.tables roomId = some table) (led : f.codes table.code = some place)
    (request : Request) :
    (f.serve request).tables roomId = some (if place = roomId then table.seat (asksFor table.code f.known request) else table) ∧
      (f.serve request).codes table.code = some place := by
  have still (unseated : asksFor table.code f.known request = []) :
      some (if place = roomId then table.seat (asksFor table.code f.known request) else table) = some table := by
    rw [unseated]
    split <;> rfl
  cases request with
  | login userId =>
    rw [still rfl]
    unfold serve
    dsimp only
    split <;> exact ⟨found,led⟩
  | create owner name password code =>
    rw [still rfl]
    refine ⟨?_,(create_extends orderly owner name password code).codes table.code place led⟩
    have elsewhere : roomId ≠ f.nextRoomId := by
      rintro rfl
      rw [number_fresh orderly] at found
      cases found
    unfold serve
    dsimp only
    split
    · exact (Function.update_of_ne elsewhere _ _).trans found
    · exact found
  | join userId asked =>
    unfold serve
    dsimp only
    by_cases same : asked = table.code
    · rw [same,led]
      dsimp only
      rw [joinAt_codes]
      refine ⟨?_,led⟩
      by_cases here : place = roomId
      · rw [here,if_pos rfl,joinAt_seats found]
        simp [asksFor]
      · rw [if_neg here,joinAt_elsewhere (Ne.symm here),found]
    · rw [still (by simp [asksFor,same])]
      cases leads : f.codes asked with
      | none => exact ⟨found,led⟩
      | some other =>
        obtain ⟨table',listed,code⟩ := orderly.codes asked other leads
        have elsewhere : roomId ≠ other := by
          rintro rfl
          cases found.symm.trans listed
          exact same code.symm
        exact ⟨(joinAt_elsewhere elsewhere userId).trans found,by rw [joinAt_codes,led]⟩
  | nothing =>
    rw [still rfl]
    exact ⟨found,led⟩

theorem serveAll_table (orderly : Orderly f created) (requests : List Request)
    (room : created + requests.countP Request.creates + 1 < 2 ^ 32) (found : f.tables roomId = some table)
    (led : f.codes table.code = some place) : (f.serveAll requests).tables roomId =
      some (if place = roomId then table.seat (askers table.code f.known requests) else table) := by
  induction requests generalizing f created table with
  | nil =>
    refine found.trans (congrArg some ?_)
    split <;> rfl
  | cons request rest ih =>
    rw [List.countP_cons] at room
    have after : Orderly (f.serve request) (created + if request.creates then 1 else 0) := serve_orderly orderly (by omega)
    obtain ⟨found',led'⟩ := serve_table orderly found led request
    have seen := ih after (by omega) found' (by split <;> exact led')
    refine seen.trans (congrArg some ?_)
    by_cases here : place = roomId
    · simp only [if_pos here,askers,serve_known,Table.seat,List.foldl_append]
    · simp only [if_neg here]

theorem created_table (orderly : Orderly f created) (owner : UserId) (name password code : StdString) (later : List Request)
    (room : created + later.countP Request.creates + 2 < 2 ^ 32) (known : f.known owner = true) :
    (f.serveAll (.create owner name password code :: later)).tables f.nextRoomId =
      some ⟨code,name,password,match f.codes code with
        | none => (owner :: askers code f.known later).eraseDups.take 4
        | some _ => [owner]⟩ := by
  let table : Table := ⟨code,name,password,[owner]⟩
  have served : f.serve (.create owner name password code) = { f with
      tables := Function.update f.tables f.nextRoomId (some table)
      codes := Function.update f.codes code (some ((f.codes code).getD f.nextRoomId))
      nextRoomId := f.nextRoomId + 1 } := if_pos known
  have after := create_orderly orderly (by omega) owner name password code
  have told := serve_known f (.create owner name password code)
  have found : (f.serve (.create owner name password code)).tables f.nextRoomId = some table := by
    rw [served]
    exact Function.update_self ..
  have led : (f.serve (.create owner name password code)).codes table.code = some ((f.codes code).getD f.nextRoomId) := by
    rw [served]
    exact Function.update_self ..
  have seated := serveAll_table after later (by omega) found led
  refine seated.trans (congrArg some ?_)
  cases drawn : f.codes code with
  | none =>
    dsimp only [Option.getD_none]
    rw [if_pos rfl,told]
    unfold Table.seat
    rw [FirstCome.accept_all (List.nodup_singleton owner) (Nat.le_of_ble_eq_true rfl)]
    rfl
  | some other =>
    obtain ⟨old,listed,_⟩ := orderly.codes code other drawn
    have elsewhere : other ≠ f.nextRoomId := by
      rintro rfl
      rw [number_fresh orderly] at listed
      cases listed
    exact if_neg elsewhere

theorem serve_listed (listed : (f.serve request).tables roomId = some table) : (∃ old, f.tables roomId = some old) ∨
    ∃ owner name password code, request = .create owner name password code ∧ f.known owner = true ∧
      roomId = f.nextRoomId := by
  cases request with
  | login userId =>
    refine .inl ⟨table,?_⟩
    unfold serve at listed
    dsimp only at listed
    split at listed <;> exact listed
  | create owner name password code =>
    by_cases known : f.known owner = true
    · by_cases here : roomId = f.nextRoomId
      · exact .inr ⟨owner,name,password,code,rfl,known,here⟩
      · rw [serve,if_pos known] at listed
        exact .inl ⟨table,(Function.update_of_ne here _ _).symm.trans listed⟩
    · rw [serve,if_neg known] at listed
      exact .inl ⟨table,listed⟩
  | join userId code =>
    unfold serve at listed
    dsimp only at listed
    split at listed
    · exact .inl ⟨table,listed⟩
    · rename_i place _
      by_cases here : roomId = place
      · cases found : f.tables roomId with
        | some old => exact .inl ⟨old,rfl⟩
        | none =>
          subst here
          rw [joinAt,found] at listed
          cases found.symm.trans listed
      · rw [joinAt_elsewhere here] at listed
        exact .inl ⟨table,listed⟩
  | nothing => exact .inl ⟨table,listed⟩

-- A table is set up by a request to create it from somebody known. The first
-- four to ask for its code from then on have it, whoever set it up before all
-- others, and nothing else matters. One that drew the code of an earlier one is
-- never found.
def Made (log : List Request) (roomId : RoomId) (table : Table) : Prop :=
  ∃ earlier owner later, log = earlier ++ .create owner table.name table.password table.code :: later ∧
    (serveAll {} earlier).known owner = true ∧ roomId = (serveAll {} earlier).nextRoomId ∧
    table.guests = match (serveAll {} earlier).codes table.code with
      | none => (owner :: askers table.code (serveAll {} earlier).known later).eraseDups.take 4
      | some _ => [owner]

theorem listed_created (log : List Request) (listed : (serveAll {} log).tables roomId = some table) :
    ∃ earlier owner name password code later, log = earlier ++ .create owner name password code :: later ∧
      (serveAll {} earlier).known owner = true ∧ roomId = (serveAll {} earlier).nextRoomId := by
  induction log using List.reverseRecOn generalizing table with
  | nil => cases listed
  | append_singleton log request ih =>
    rw [serveAll,List.foldl_append] at listed
    rcases serve_listed listed with ⟨old,found⟩ | ⟨owner,name,password,code,rfl,known,next⟩
    · obtain ⟨earlier,owner,name,password,code,later,rfl,known,next⟩ := ih found
      exact ⟨earlier,owner,name,password,code,later ++ [request],by simp,known,next⟩
    · exact ⟨log,owner,name,password,code,[],rfl,known,next⟩

theorem tables_made (log : List Request) (few : log.countP Request.creates + 1 < 2 ^ 32) :
    (serveAll {} log).tables roomId = some table ↔ Made log roomId table := by
  have set_up (earlier : List Request) (owner : UserId) (name password code : StdString) (later : List Request)
      (split : log = earlier ++ .create owner name password code :: later) (known : (serveAll {} earlier).known owner = true) :
      (serveAll {} log).tables (serveAll {} earlier).nextRoomId =
        some ⟨code,name,password,match (serveAll {} earlier).codes code with
          | none => (owner :: askers code (serveAll {} earlier).known later).eraseDups.take 4
          | some _ => [owner]⟩ := by
    rw [split,List.countP_append,List.countP_cons_of_pos rfl] at few
    have orderly := (serveAll_extends empty_orderly earlier (by omega)).1
    rw [split,serveAll,List.foldl_append]
    exact created_table orderly owner name password code later (by omega) known
  refine ⟨?_,?_⟩
  · intro listed
    obtain ⟨earlier,owner,name,password,code,later,split,known,rfl⟩ := listed_created log listed
    cases (set_up earlier owner name password code later split known).symm.trans listed
    exact ⟨earlier,owner,later,split,known,rfl,rfl⟩
  · rintro ⟨earlier,owner,later,split,known,rfl,guests⟩
    rw [set_up earlier owner _ _ _ later split known,← guests]

end Seats
end Foyer

namespace Server

-- Which rooms there are and who is in them, from the requests alone. Disconnects,
-- leave requests and the joins of other rooms have no part in it.
theorem rooms_exact (library : JsonLibrary) (heap : Heap) (events : List Event) (s : Server)
    (path : Machine.run (step library) (start heap) events = some s)
    (few : (requests library (start heap) events).countP Foyer.Request.creates + 1 < 2 ^ 32) (roomId : RoomId) (table : Table) :
    (∃ room, s.lobby.getRoom roomId = some room ∧ room.table = table) ↔
      Foyer.Made (requests library (start heap) events) roomId table := by
  have refined : s.lobby.foyer = Foyer.serveAll {} (requests library (start heap) events) := run_foyer (Lobby.opened_open heap) path
  rw [← Foyer.tables_made _ few,← refined]
  exact Option.map_eq_some_iff.symm

def twoAsk : List Foyer.Request := [.nothing,.nothing,.nothing,.login 124,.nothing,.login 125,.nothing]

theorem two_came : ∃ s room, Machine.run (step Json.compact) (start Lobby.noInfos) twoInRoom = some s ∧
    s.lobby.getRoom 1 = some room ∧ room.table = ⟨stdString "000000",[65],[],[124,125]⟩ := by
  have ran : (Machine.run (step Json.compact) (start Lobby.noInfos) twoInRoom).isSome = true := by decide +kernel
  obtain ⟨s,path⟩ := Option.isSome_iff_exists.mp ran
  have split : requests Json.compact (start Lobby.noInfos) twoInRoom = twoAsk ++
      .create 124 [65] [] (stdString "000000") :: [.nothing,.join 125 (stdString "000000")] := by decide +kernel
  obtain ⟨room,listed,table⟩ := (rooms_exact Json.compact Lobby.noInfos twoInRoom s path (by decide +kernel) 1
    ⟨stdString "000000",[65],[],[124,125]⟩).mpr ⟨twoAsk,124,_,split,rfl,rfl,by decide +kernel⟩
  exact ⟨s,room,path,listed,table⟩

end Server
end GameServer
