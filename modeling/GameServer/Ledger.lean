import GameServer.Elimination

namespace GameServer
open Foundation

namespace RuntimeData

inductive Counter where
  | resources | baseCount
deriving DecidableEq

def Counter.read (state : PlayerRuntimeState) : Counter → UInt32
  | .resources => state.resources
  | .baseCount => state.baseCount

def Counter.write (state : PlayerRuntimeState) (value : UInt32) : Counter → PlayerRuntimeState
  | .resources => { state with resources := value }
  | .baseCount => { state with baseCount := value }

-- One `+= 1` or `-= 1` on a counter of a player.
structure Update where
  player : UserId
  counter : Counter
  gain : Bool
deriving DecidableEq

def Update.account (u : Update) : UserId × Counter := (u.player,u.counter)

def Update.next (u : Update) (value : UInt32) : UInt32 := if u.gain then value + 1 else value - 1

def reading (rt : RuntimeData) (account : UserId × Counter) : UInt32 := account.2.read (rt.player account.1)

def post (rt : RuntimeData) (u : Update) : RuntimeData :=
  rt.setPlayer u.player fun state => u.counter.write state (u.next (u.counter.read state))

def postAll (rt : RuntimeData) (updates : List Update) : RuntimeData := updates.foldl post rt

def Update.Exact (u : Update) (value : UInt32) : Prop :=
  if u.gain then (u.next value).toNat = value.toNat + 1 else (u.next value).toNat + 1 = value.toNat

-- Every update is exact on the value its counter has by then.
def Tallied (rt : RuntimeData) : List Update → Prop
  | [] => True
  | u :: rest => u.Exact (rt.reading u.account) ∧ Tallied (rt.post u) rest

section Posting
variable {rt : RuntimeData} {u : Update} {account : UserId × Counter} {updates : List Update} {id : UserId}

theorem read_write (state : PlayerRuntimeState) (value : UInt32) (one other : Counter) :
    other.read (one.write state value) = if other = one then value else other.read state := by
  cases one <;> cases other <;> rfl

theorem post_reading (present : u.player ∈ rt.players) : (rt.post u).reading account =
    if account = u.account then u.next (rt.reading account) else rt.reading account := by
  obtain ⟨user,counter⟩ := account
  unfold post reading Update.account
  dsimp only
  rw [setPlayer_player _ _ _ _ present]
  by_cases sameUser : user = u.player
  · subst sameUser
    rw [if_pos rfl,read_write]
    by_cases sameCounter : counter = u.counter
    · subst sameCounter; simp
    · simp [sameCounter]
  · simp [sameUser]

theorem postAll_failure : ((rt.postAll updates).player id).failure = (rt.player id).failure := by
  unfold postAll
  induction updates generalizing rt with
  | nil => rfl
  | cons u rest ih =>
    have kept (state : PlayerRuntimeState) :
        (u.counter.write state (u.next (u.counter.read state))).failure = state.failure := by
      cases u.counter <;> rfl
    exact ih.trans (setPlayer_keeps PlayerRuntimeState.failure kept)

theorem postAll_untouched (present : ∀ u ∈ updates, u.player ∈ rt.players) (other : account ∉ updates.map Update.account) :
    (rt.postAll updates).reading account = rt.reading account := by
  unfold postAll
  induction updates generalizing rt with
  | nil => rfl
  | cons u rest ih =>
    simp only [List.map_cons,List.mem_cons,not_or] at other
    have later : ∀ v ∈ rest, v.player ∈ (rt.post u).players :=
      fun v member => (setPlayer_mem _ _ _ _).mpr (present v (List.mem_cons_of_mem _ member))
    rw [List.foldl_cons,ih later other.2,post_reading (present u List.mem_cons_self),if_neg other.1]

theorem postAll_reading (present : ∀ u ∈ updates, u.player ∈ rt.players) (once : (updates.map Update.account).Nodup)
    (member : u ∈ updates) : (rt.postAll updates).reading u.account = u.next (rt.reading u.account) := by
  unfold postAll
  induction updates generalizing rt with
  | nil => cases member
  | cons v rest ih =>
    have later : ∀ w ∈ rest, w.player ∈ (rt.post v).players :=
      fun w member => (setPlayer_mem _ _ _ _).mpr (present w (List.mem_cons_of_mem _ member))
    have here : (rt.post v).reading u.account =
        if u.account = v.account then v.next (rt.reading u.account) else rt.reading u.account :=
      post_reading (present v List.mem_cons_self)
    obtain ⟨fresh,once⟩ := List.nodup_cons.mp once
    rcases List.mem_cons.mp member with rfl | member
    · have kept := postAll_untouched later fresh
      rw [if_pos rfl] at here
      exact kept.trans here
    · have apart : u.account ≠ v.account := fun same => fresh (same ▸ List.mem_map_of_mem member)
      rw [if_neg apart] at here
      rw [List.foldl_cons,ih later once member,here]

theorem exact_iff (value : UInt32) : u.Exact value ↔ if u.gain then value.toNat + 1 < 2 ^ 32 else value ≠ 0 := by
  have bound := UInt32.toNat_lt value
  have one : (1 : UInt32).toNat = 1 := rfl
  unfold Update.Exact Update.next
  split
  · rw [UInt32.toNat_add]
    omega
  · have empty : value = 0 ↔ value.toNat = 0 := UInt32.toNat_inj.symm
    rw [Ne,empty,UInt32.toNat_sub]
    omega

theorem postAll_players {other : RuntimeData} (updates : List Update) (same : other.players = rt.players) :
    (other.postAll updates).players = (rt.postAll updates).players := by
  unfold postAll
  induction updates generalizing rt other with
  | nil => exact same
  | cons u rest ih =>
    have posted : (other.post u).players = (rt.post u).players := by
      simp only [post,setPlayer,same]
    exact ih posted

end Posting
end RuntimeData
end GameServer
