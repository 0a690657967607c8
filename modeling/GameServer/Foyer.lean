import Mathlib.Algebra.Group.Nat.Defs
import Mathlib.Data.List.Infix
import Mathlib.Data.List.Nodup
import Mathlib.Logic.Function.Basic
import GameServer.MessageProto

namespace GameServer

-- A room as far as its guests can tell. The owner sits first.
structure Table where
  code : StdString
  name : StdString
  password : StdString
  guests : List UserId
deriving DecidableEq

-- What the rooms are for: tables of four found by a code, and the users who may
-- sit down at them.
structure Foyer where
  tables : RoomId → Option Table := fun _ => none
  codes : StdString → Option RoomId := fun _ => none
  nextRoomId : RoomId := 1
  known : UserId → Bool := fun _ => false

inductive Foyer.Request where
  | login (userId : UserId)
  | create (owner : UserId) (name password code : StdString)
  | join (userId : UserId) (code : StdString)
  | nothing
deriving DecidableEq

def Foyer.Request.creates : Foyer.Request → Bool
  | .create .. => true
  | _ => false

namespace Foyer

def joinAt (f : Foyer) (roomId : RoomId) (userId : UserId) : Foyer :=
  match f.tables roomId with
  | none => f
  | some table =>
    if f.known userId ∧ userId ∉ table.guests ∧ table.guests.length < 4
    then { f with tables := Function.update f.tables roomId (some { table with guests := table.guests ++ [userId] }) }
    else f

def serve (f : Foyer) : Request → Foyer
  | .login userId => if userId = 0 then f else { f with known := Function.update f.known userId true }
  | .create owner name password code =>
    if f.known owner then
      { f with
        tables := Function.update f.tables f.nextRoomId (some ⟨code,name,password,[owner]⟩)
        codes := Function.update f.codes code (some ((f.codes code).getD f.nextRoomId))
        nextRoomId := f.nextRoomId + 1 }
    else { f with nextRoomId := f.nextRoomId + 1 }
  | .join userId code =>
    match f.codes code with
    | none => f
    | some roomId => f.joinAt roomId userId
  | .nothing => f

def serveAll (f : Foyer) (requests : List Request) : Foyer := requests.foldl serve f

-- Tables have been numbered from 1 on, and no number has come round again.
structure Orderly (f : Foyer) (created : Nat) : Prop where
  counted : f.nextRoomId.toNat = 1 + created
  below : ∀ roomId table, f.tables roomId = some table → roomId.toNat < f.nextRoomId.toNat
  codes : ∀ code roomId, f.codes code = some roomId → ∃ table, f.tables roomId = some table ∧ table.code = code

-- Everything that was there is there still, in its place.
structure Extends (f later : Foyer) : Prop where
  tables : ∀ roomId table, f.tables roomId = some table → ∃ after, later.tables roomId = some after ∧
    after.code = table.code ∧ after.name = table.name ∧ after.password = table.password ∧ table.guests <+: after.guests
  codes : ∀ code roomId, f.codes code = some roomId → later.codes code = some roomId
  known : ∀ userId, f.known userId = true → later.known userId = true

namespace Extends
variable {f middle later : Foyer}

theorem refl (f : Foyer) : Extends f f :=
  ⟨fun _ table found => ⟨table,found,rfl,rfl,rfl,List.prefix_refl _⟩,fun _ _ found => found,fun _ known => known⟩

theorem trans (left : Extends f middle) (right : Extends middle later) : Extends f later := by
  refine ⟨?_,fun code roomId found => right.codes code roomId (left.codes code roomId found),
    fun userId known => right.known userId (left.known userId known)⟩
  intro roomId table found
  obtain ⟨between,found,code,name,password,guests⟩ := left.tables roomId table found
  obtain ⟨after,found,code',name',password',guests'⟩ := right.tables roomId between found
  exact ⟨after,found,code'.trans code,name'.trans name,password'.trans password,guests.trans guests'⟩

end Extends

section Serving
variable {f : Foyer} {created : Nat} {request : Request}

theorem joinAt_cases (f : Foyer) (roomId : RoomId) (userId : UserId) :
    f.joinAt roomId userId = f ∨ ∃ table, f.tables roomId = some table ∧ f.known userId = true ∧
      userId ∉ table.guests ∧ table.guests.length < 4 ∧
      f.joinAt roomId userId =
        { f with tables := Function.update f.tables roomId (some { table with guests := table.guests ++ [userId] }) } := by
  unfold joinAt
  cases found : f.tables roomId with
  | none => exact .inl rfl
  | some table =>
    dsimp only
    split
    · rename_i admitted
      exact .inr ⟨table,rfl,admitted.1,admitted.2.1,admitted.2.2,rfl⟩
    · exact .inl rfl

theorem joinAt_extends (roomId : RoomId) (userId : UserId) : Extends f (f.joinAt roomId userId) := by
  rcases joinAt_cases f roomId userId with same | ⟨table,found,_,_,_,joined⟩
  · rw [same]
    exact .refl f
  · rw [joined]
    refine ⟨?_,fun _ _ found => found,fun _ known => known⟩
    intro other another listed
    dsimp only
    by_cases here : other = roomId
    · subst here
      cases found.symm.trans listed
      exact ⟨_,Function.update_self ..,rfl,rfl,rfl,List.prefix_append ..⟩
    · exact ⟨another,by rw [Function.update_of_ne here,listed],rfl,rfl,rfl,List.prefix_refl _⟩

theorem joinAt_orderly (orderly : Orderly f created) (roomId : RoomId) (userId : UserId) :
    Orderly (f.joinAt roomId userId) created := by
  rcases joinAt_cases f roomId userId with same | ⟨table,found,_,_,_,joined⟩
  · rw [same]
    exact orderly
  · rw [joined]
    refine ⟨orderly.counted,?_,?_⟩
    · intro other another listed
      dsimp only at listed
      by_cases here : other = roomId
      · exact orderly.below other table (here ▸ found)
      · rw [Function.update_of_ne here] at listed
        exact orderly.below other another listed
    · intro code other led
      obtain ⟨another,listed,same⟩ := orderly.codes code other led
      dsimp only
      by_cases here : other = roomId
      · subst here
        cases found.symm.trans listed
        exact ⟨_,Function.update_self ..,same⟩
      · exact ⟨another,by rw [Function.update_of_ne here,listed],same⟩

theorem number_drawn (orderly : Orderly f created) (room : created + 2 < 2 ^ 32) :
    (f.nextRoomId + 1).toNat = 1 + (created + 1) := by
  have counted := orderly.counted
  rw [UInt32.toNat_add,UInt32.toNat_one,counted]
  omega

theorem number_fresh (orderly : Orderly f created) : f.tables f.nextRoomId = none := by
  rw [Option.eq_none_iff_forall_ne_some]
  intro table found
  exact Nat.lt_irrefl _ (orderly.below _ table found)

theorem create_orderly (orderly : Orderly f created) (room : created + 2 < 2 ^ 32) (owner : UserId)
    (name password code : StdString) : Orderly (f.serve (.create owner name password code)) (created + 1) := by
  have drawn := number_drawn orderly room
  have counted := orderly.counted
  unfold serve
  dsimp only
  split
  · refine ⟨drawn,?_,?_⟩
    · intro roomId table found
      dsimp only at found ⊢
      by_cases here : roomId = f.nextRoomId
      · rw [here,drawn,counted]
        omega
      · rw [Function.update_of_ne here] at found
        have below := orderly.below roomId table found
        omega
    · intro other roomId led
      dsimp only at led ⊢
      have kept {roomId : RoomId} (led : ∃ table, f.tables roomId = some table ∧ table.code = other) :
          ∃ table, Function.update f.tables f.nextRoomId (some ⟨code,name,password,[owner]⟩) roomId = some table ∧
            table.code = other := by
        obtain ⟨table,found,same⟩ := led
        have elsewhere : roomId ≠ f.nextRoomId := by
          rintro rfl
          rw [number_fresh orderly] at found
          cases found
        exact ⟨table,by rw [Function.update_of_ne elsewhere,found],same⟩
      by_cases drawn : other = code
      · subst drawn
        rw [Function.update_self] at led
        cases known : f.codes other with
        | none =>
          rw [known] at led
          cases led
          exact ⟨_,Function.update_self ..,rfl⟩
        | some old =>
          rw [known] at led
          cases led
          exact kept (orderly.codes _ _ known)
      · rw [Function.update_of_ne drawn] at led
        exact kept (orderly.codes _ _ led)
  · refine ⟨drawn,?_,orderly.codes⟩
    intro roomId table found
    have below := orderly.below roomId table found
    dsimp only
    omega

theorem create_extends (orderly : Orderly f created) (owner : UserId) (name password code : StdString) :
    Extends f (f.serve (.create owner name password code)) := by
  unfold serve
  dsimp only
  split
  · refine ⟨?_,?_,fun _ known => known⟩
    · intro roomId table found
      have elsewhere : roomId ≠ f.nextRoomId := by
        rintro rfl
        rw [number_fresh orderly] at found
        cases found
      exact ⟨table,by dsimp only; rw [Function.update_of_ne elsewhere,found],rfl,rfl,rfl,List.prefix_refl _⟩
    · intro other roomId led
      dsimp only
      by_cases drawn : other = code
      · subst drawn
        rw [Function.update_self,led]
        rfl
      · rw [Function.update_of_ne drawn,led]
  · exact ⟨fun _ table found => ⟨table,found,rfl,rfl,rfl,List.prefix_refl _⟩,fun _ _ led => led,fun _ known => known⟩

theorem serve_extends (orderly : Orderly f created) : Extends f (f.serve request) := by
  cases request with
  | login userId =>
    unfold serve
    dsimp only
    split
    · exact .refl f
    · refine ⟨fun _ table found => ⟨table,found,rfl,rfl,rfl,List.prefix_refl _⟩,fun _ _ led => led,?_⟩
      intro other known
      dsimp only
      rw [Function.update_apply]
      split
      · rfl
      · exact known
  | create owner name password code => exact create_extends orderly owner name password code
  | join userId code =>
    unfold serve
    dsimp only
    split
    · exact .refl f
    · exact joinAt_extends _ userId
  | nothing => exact .refl f

theorem serve_orderly (orderly : Orderly f created) (room : created + (if request.creates then 1 else 0) + 1 < 2 ^ 32) :
    Orderly (f.serve request) (created + if request.creates then 1 else 0) := by
  cases request with
  | login userId =>
    unfold serve
    dsimp only
    split <;> exact ⟨orderly.counted,orderly.below,orderly.codes⟩
  | create owner name password code => exact create_orderly orderly room owner name password code
  | join userId code =>
    unfold serve
    dsimp only
    split
    · exact orderly
    · exact joinAt_orderly orderly _ userId
  | nothing => exact orderly

theorem empty_orderly : Orderly {} 0 := ⟨rfl,nofun,nofun⟩

theorem serveAll_extends (orderly : Orderly f created) (requests : List Request)
    (room : created + requests.countP Request.creates + 1 < 2 ^ 32) :
    Orderly (f.serveAll requests) (created + requests.countP Request.creates) ∧ Extends f (f.serveAll requests) := by
  induction requests generalizing f created with
  | nil => exact ⟨orderly,.refl f⟩
  | cons request rest ih =>
    rw [List.countP_cons] at room ⊢
    have after : Orderly (f.serve request) (created + if request.creates then 1 else 0) := serve_orderly orderly (by omega)
    obtain ⟨orderly',extends'⟩ := ih after (by omega)
    refine ⟨?_,(serve_extends orderly).trans extends'⟩
    have sum : created + (rest.countP Request.creates + if request.creates = true then 1 else 0) =
        created + (if request.creates = true then 1 else 0) + rest.countP Request.creates := by omega
    rw [sum]
    exact orderly'

end Serving

structure Seated (f : Foyer) : Prop where
  nobody : f.known 0 = false
  tables : ∀ roomId table, f.tables roomId = some table → table.guests ≠ [] ∧ table.guests.length ≤ 4 ∧ table.guests.Nodup ∧
    ∀ userId ∈ table.guests, f.known userId = true

-- The request that brought a user to a table, made after a login of the user.
structure Admitted (log : List Request) (userId : UserId) (table : Table) (earlier : List Request) (request : Request) : Prop where
  made : ∃ later, log = earlier ++ request :: later
  login : .login userId ∈ earlier
  asked : request = .create userId table.name table.password table.code ∨ request = .join userId table.code

-- Every user and every guest is accounted for by what has been asked.
structure Vouched (f : Foyer) (log : List Request) : Prop where
  known : ∀ userId, f.known userId = true → .login userId ∈ log
  guests : ∀ roomId table, f.tables roomId = some table → ∀ userId ∈ table.guests,
    ∃ earlier request, Admitted log userId table earlier request

section Guests
variable {f : Foyer} {log : List Request} {request : Request} {created : Nat}

theorem serve_seated (seated : Seated f) (request : Request) : Seated (f.serve request) := by
  cases request with
  | login userId =>
    unfold serve
    dsimp only
    split
    · exact seated
    · rename_i real
      refine ⟨?_,?_⟩
      · dsimp only
        rw [Function.update_of_ne (Ne.symm real),seated.nobody]
      · intro roomId table found
        obtain ⟨some_,few,once,known⟩ := seated.tables roomId table found
        refine ⟨some_,few,once,?_⟩
        intro guest member
        dsimp only
        rw [Function.update_apply]
        split
        · rfl
        · exact known guest member
  | create owner name password code =>
    unfold serve
    dsimp only
    split
    · rename_i known
      refine ⟨seated.nobody,?_⟩
      intro roomId table found
      dsimp only at found
      by_cases here : roomId = f.nextRoomId
      · subst here
        rw [Function.update_self] at found
        cases found
        exact ⟨List.cons_ne_nil _ _,Nat.succ_le_succ (Nat.zero_le 3),List.nodup_singleton owner,by simpa using known⟩
      · rw [Function.update_of_ne here] at found
        exact seated.tables roomId table found
    · exact ⟨seated.nobody,seated.tables⟩
  | join userId code =>
    unfold serve
    dsimp only
    split
    · exact seated
    · rename_i roomId _
      rcases joinAt_cases f roomId userId with same | ⟨table,found,known,fresh,few,joined⟩
      · rw [same]
        exact seated
      · rw [joined]
        refine ⟨seated.nobody,?_⟩
        intro other another listed
        dsimp only at listed
        by_cases here : other = roomId
        · subst here
          rw [Function.update_self] at listed
          cases listed
          obtain ⟨_,_,once,all⟩ := seated.tables other table found
          refine ⟨by simp,?_,once.append (List.nodup_singleton userId) (by simpa using fresh),?_⟩
          · rw [List.length_append,List.length_singleton]
            exact few
          · intro guest member
            rcases List.mem_append.mp member with old | new
            · exact all guest old
            · rw [List.mem_singleton.mp new]
              exact known
        · rw [Function.update_of_ne here] at listed
          exact seated.tables other another listed
  | nothing => exact seated

theorem admitted_later {userId : UserId} {table : Table} {earlier : List Request} {asked : Request}
    (admitted : Admitted log userId table earlier asked) : Admitted (log ++ [request]) userId table earlier asked := by
  obtain ⟨later,split⟩ := admitted.made
  exact ⟨⟨later ++ [request],by rw [split,List.append_assoc,List.cons_append]⟩,admitted.login,admitted.asked⟩

theorem vouched_known (vouched : Vouched f log) {userId : UserId} (known : f.known userId = true) :
    .login userId ∈ log ++ [request] := List.mem_append_left _ (vouched.known userId known)

theorem vouched_guests (vouched : Vouched f log) {roomId : RoomId} {table : Table} (found : f.tables roomId = some table)
    {userId : UserId} (member : userId ∈ table.guests) :
    ∃ earlier asked, Admitted (log ++ [request]) userId table earlier asked := by
  obtain ⟨earlier,asked,admitted⟩ := vouched.guests roomId table found userId member
  exact ⟨earlier,asked,admitted_later admitted⟩

theorem serve_vouched (orderly : Orderly f created) (vouched : Vouched f log) : Vouched (f.serve request) (log ++ [request]) := by
  have kept : Vouched f (log ++ [request]) :=
    ⟨fun _ known => vouched_known vouched known,fun _ _ found _ member => vouched_guests vouched found member⟩
  cases request with
  | login userId =>
    unfold serve
    dsimp only
    split
    · exact kept
    · refine ⟨?_,kept.guests⟩
      intro other known
      dsimp only at known
      by_cases same : other = userId
      · rw [same]
        exact List.mem_append_right _ (List.mem_singleton_self _)
      · rw [Function.update_of_ne same] at known
        exact kept.known other known
  | create owner name password code =>
    unfold serve
    dsimp only
    split
    · rename_i known
      refine ⟨kept.known,?_⟩
      intro roomId table found
      dsimp only at found
      by_cases here : roomId = f.nextRoomId
      · subst here
        rw [Function.update_self] at found
        cases found
        intro userId member
        rw [List.mem_singleton.mp member]
        exact ⟨log,_,⟨[],rfl⟩,vouched.known owner known,.inl rfl⟩
      · rw [Function.update_of_ne here] at found
        exact kept.guests roomId table found
    · exact ⟨kept.known,kept.guests⟩
  | join userId code =>
    unfold serve
    dsimp only
    split
    · exact kept
    · rename_i roomId led
      rcases joinAt_cases f roomId userId with same | ⟨table,found,known,fresh,few,joined⟩
      · rw [same]
        exact kept
      · rw [joined]
        refine ⟨kept.known,?_⟩
        intro other another listed
        dsimp only at listed
        by_cases here : other = roomId
        · subst here
          rw [Function.update_self] at listed
          cases listed
          -- The code the user came by is the table's own.
          obtain ⟨named,found',code_⟩ := orderly.codes code other led
          cases found.symm.trans found'
          intro guest member
          rcases List.mem_append.mp member with old | new
          · obtain ⟨earlier,asked,admitted⟩ := kept.guests other table found guest old
            exact ⟨earlier,asked,admitted.made,admitted.login,admitted.asked⟩
          · rw [List.mem_singleton.mp new]
            exact ⟨log,_,⟨[],rfl⟩,vouched.known userId known,.inr (by rw [code_])⟩
        · rw [Function.update_of_ne here] at listed
          exact kept.guests other another listed
  | nothing => exact kept

theorem serveAll_seated (seated : Seated f) (requests : List Request) : Seated (f.serveAll requests) := by
  induction requests generalizing f with
  | nil => exact seated
  | cons request rest ih => exact ih (serve_seated seated request)

theorem empty_seated : Seated {} := ⟨rfl,nofun⟩

theorem serveAll_vouched (requests : List Request) (room : requests.countP Request.creates + 1 < 2 ^ 32) :
    Vouched (serveAll {} requests) requests := by
  induction requests using List.reverseRecOn with
  | nil => exact ⟨nofun,nofun⟩
  | append_singleton earlier request ih =>
    rw [List.countP_append] at room
    have orderly := (serveAll_extends empty_orderly earlier (by omega)).1
    have served : serveAll {} (earlier ++ [request]) = (serveAll {} earlier).serve request := by
      rw [serveAll,List.foldl_append]
      rfl
    rw [served]
    exact serve_vouched orderly (ih (by omega))

end Guests
end Foyer
end GameServer
