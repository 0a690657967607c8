import GameServer.Foundation.TaskPool
import GameServer.GameMapIO

namespace GameServer
open Foundation TaskPool

namespace GameMap

-- An entry of the map, and the node it lives in: no later insertion moves it.
structure CachedMap where
  node : Nat
  data : MapData

structure MapCache where
  maps : UnorderedMap StdString CachedMap := ∅
  nextNode : Nat := 0

def MapCache.tryEmplace (c : MapCache) (mapPath : StdString) (data : MapData) : Nat × MapCache :=
  match c.maps.lookup mapPath with
  | some entry => (entry.node,c)
  | none => (c.nextNode,⟨AList.insert mapPath ⟨c.nextNode,data⟩ c.maps,c.nextNode + 1⟩)

def mapDataDir : StdString := stdString "/data/maps/"

-- Joining an absolute path drops the directory.
def getMapFilePath (mapName : StdString) : StdString :=
  let file := mapName ++ stdString ".json"
  if file.head? = some 0x2F then file else mapDataDir ++ file

abbrev Disk := StdString → Option StdString

-- What LoadMapData works on, with what the files have held since the start and
-- what its calls have returned.
structure Shared where
  cache : MapCache := {}
  disk : Disk
  seen : List Disk
  returned : List (StdString × Option Nat) := []

-- The sections of LoadMapData: a lookup under the shared lock, the load and the
-- parse without a lock, try_emplace under the unique lock.
inductive Action where
  | lookup (mapPath : StdString)
  | load (mapPath : StdString)
  | emplace (mapPath : StdString) (data : MapData)

def Shared.answer (s : Shared) (mapPath : StdString) (result : Option Nat) : Shared :=
  { s with returned := s.returned ++ [(mapPath,result)] }

-- `readDoc` is the stream parser of the library, none where it throws.
variable (readDoc : StdString → Option JsonDoc) (library : DocLibrary)

def loadMapFile (disk : Disk) (filePath : StdString) : Option JsonDoc := (disk filePath).bind readDoc

def loadParsed (disk : Disk) (mapPath : StdString) : Option MapData :=
  (loadMapFile readDoc disk (getMapFilePath mapPath)).bind (parseMapData library)

-- With `fails` the section throws for want of memory, which is caught like any other exception.
def perform (s : Shared) (fails : Bool) : Action → Effect Shared Action
  | .lookup mapPath =>
    match s.cache.maps.lookup mapPath with
    | some entry => { state := s.answer mapPath (some entry.node) }
    | none => { state := s, goesOn := [.load mapPath] }
  | .load mapPath =>
    if fails then { state := s.answer mapPath none }
    else match loadParsed readDoc library s.disk mapPath with
      | none => { state := s.answer mapPath none }
      | some data => { state := s, goesOn := [.emplace mapPath data] }
  | .emplace mapPath data =>
    if fails then { state := s.answer mapPath none }
    else
      let (node,cache) := s.cache.tryEmplace mapPath data
      { state := { s with cache := cache }.answer mapPath (some node) }

abbrev Pool := Shared × List (List Action)

inductive Event where
  | loadMapData (mapPath : StdString)
  | goesOn (index : Nat) (fails : Bool)
  | rewrite (disk : Disk)

def step (pool : Pool) : Event → Option Pool
  | .loadMapData mapPath => some (pool.1,pool.2 ++ [[.lookup mapPath]])
  | .goesOn index fails => advance (perform readDoc library) pool (index,fails)
  | .rewrite disk => some ({ pool.1 with disk := disk, seen := pool.1.seen ++ [disk] },pool.2)

def start (disk : Disk) : Pool := ({ disk, seen := [disk] },[])

def Had (s : Shared) (mapPath : StdString) (data : MapData) : Prop :=
  ∃ disk ∈ s.seen, loadParsed readDoc library disk mapPath = some data

structure Sound (s : Shared) (pending : List Action) : Prop where
  current : s.disk ∈ s.seen
  entries : ∀ mapPath entry, s.cache.maps.lookup mapPath = some entry → Had readDoc library s mapPath entry.data
  returned : ∀ mapPath node, (mapPath,some node) ∈ s.returned → ∃ data, s.cache.maps.lookup mapPath = some ⟨node,data⟩
  pending : ∀ mapPath data, .emplace mapPath data ∈ pending → Had readDoc library s mapPath data

-- Nothing cached is changed or forgotten, nothing seen or returned either.
structure Extends (s next : Shared) : Prop where
  entries : ∀ mapPath entry, s.cache.maps.lookup mapPath = some entry → next.cache.maps.lookup mapPath = some entry
  seen : s.seen ⊆ next.seen
  returned : s.returned ⊆ next.returned

variable {readDoc library}

section Steps
variable {s next : Shared}

theorem Extends.refl (s : Shared) : Extends s s := ⟨fun _ _ found => found,List.Subset.refl _,List.Subset.refl _⟩

theorem Extends.trans {middle : Shared} (left : Extends s middle) (right : Extends middle next) : Extends s next :=
  ⟨fun mapPath entry found => right.entries mapPath entry (left.entries mapPath entry found),
    List.Subset.trans left.seen right.seen,List.Subset.trans left.returned right.returned⟩

theorem answer_extends (s : Shared) (mapPath : StdString) (result : Option Nat) : Extends s (s.answer mapPath result) :=
  ⟨fun _ _ found => found,List.Subset.refl _,List.subset_append_left _ _⟩

theorem tryEmplace_lookup (c : MapCache) (mapPath : StdString) (data : MapData) :
    ∃ stored, (c.tryEmplace mapPath data).2.maps.lookup mapPath = some ⟨(c.tryEmplace mapPath data).1,stored⟩ ∧
      (stored = data ∨ c.maps.lookup mapPath = some ⟨(c.tryEmplace mapPath data).1,stored⟩) := by
  unfold MapCache.tryEmplace
  cases found : c.maps.lookup mapPath with
  | some entry => exact ⟨entry.data,found,.inr rfl⟩
  | none => exact ⟨data,AList.lookup_insert _,.inl rfl⟩

theorem tryEmplace_other (c : MapCache) {mapPath other : StdString} (data : MapData) (different : other ≠ mapPath) :
    (c.tryEmplace mapPath data).2.maps.lookup other = c.maps.lookup other := by
  unfold MapCache.tryEmplace
  split
  · rfl
  · exact AList.lookup_insert_ne different

theorem tryEmplace_keeps {c : MapCache} {mapPath other : StdString} {entry : CachedMap} (data : MapData)
    (found : c.maps.lookup other = some entry) : (c.tryEmplace mapPath data).2.maps.lookup other = some entry := by
  by_cases same : other = mapPath
  · subst same
    unfold MapCache.tryEmplace
    rw [found]
    exact found
  · rw [tryEmplace_other c data same]
    exact found

inductive Ran (readDoc : StdString → Option JsonDoc) (library : DocLibrary) (s : Shared) : Action → Effect Shared Action → Prop where
  | hit {mapPath : StdString} {entry : CachedMap} (found : s.cache.maps.lookup mapPath = some entry) :
      Ran readDoc library s (.lookup mapPath) { state := s.answer mapPath (some entry.node) }
  | missed {mapPath : StdString} : Ran readDoc library s (.lookup mapPath) { state := s, goesOn := [.load mapPath] }
  | failed {action : Action} {mapPath : StdString} : Ran readDoc library s action { state := s.answer mapPath none }
  | loaded {mapPath : StdString} {data : MapData} (parsed : loadParsed readDoc library s.disk mapPath = some data) :
      Ran readDoc library s (.load mapPath) { state := s, goesOn := [.emplace mapPath data] }
  | emplaced {mapPath : StdString} {data : MapData} : Ran readDoc library s (.emplace mapPath data)
      { state := { s with cache := (s.cache.tryEmplace mapPath data).2 }.answer mapPath (some (s.cache.tryEmplace mapPath data).1) }

theorem perform_ran (s : Shared) (fails : Bool) (action : Action) :
    Ran readDoc library s action (perform readDoc library s fails action) := by
  cases action with
  | lookup mapPath =>
    dsimp only [perform]
    split
    · rename_i entry found
      exact .hit found
    · exact .missed
  | load mapPath =>
    dsimp only [perform]
    split
    · exact .failed
    · split
      · exact .failed
      · rename_i data parsed
        exact .loaded parsed
  | emplace mapPath data =>
    dsimp only [perform]
    split
    · exact .failed
    · exact .emplaced

theorem ran_extends {action : Action} {effect : Effect Shared Action} (ran : Ran readDoc library s action effect) :
    Extends s effect.state := by
  cases ran with
  | hit found => exact answer_extends s _ _
  | missed => exact .refl s
  | failed => exact answer_extends s _ _
  | loaded parsed => exact .refl s
  | emplaced => exact ⟨fun _ _ found => tryEmplace_keeps _ found,List.Subset.refl _,List.subset_append_left _ _⟩

theorem had_extends {mapPath : StdString} {data : MapData} (grows : Extends s next) (had : Had readDoc library s mapPath data) :
    Had readDoc library next mapPath data := by
  obtain ⟨disk,seen,parsed⟩ := had
  exact ⟨disk,grows.seen seen,parsed⟩

theorem sound_perm {first second : List Action} (sound : Sound readDoc library s first) (same : first.Perm second) :
    Sound readDoc library s second :=
  ⟨sound.current,sound.entries,sound.returned,fun mapPath data member => sound.pending mapPath data (same.mem_iff.mpr member)⟩

theorem ran_sound {action : Action} {others : List Action} {effect : Effect Shared Action}
    (sound : Sound readDoc library s (action :: others)) (ran : Ran readDoc library s action effect) :
    Sound readDoc library effect.state (effect.goesOn ++ others ++ effect.spawns.flatten) := by
  obtain ⟨current,entries,returned,pending⟩ := sound
  have rest : ∀ mapPath data, .emplace mapPath data ∈ others → Had readDoc library s mapPath data :=
    fun mapPath data member => pending mapPath data (List.mem_cons_of_mem _ member)
  cases ran with
  | @hit mapPath entry found =>
    refine ⟨current,entries,?_,fun other data member => rest other data (by simpa using member)⟩
    intro other node member
    rcases List.mem_append.mp member with old | new
    · exact returned other node old
    · cases List.mem_singleton.mp new
      exact ⟨entry.data,found⟩
  | @missed mapPath =>
    refine ⟨current,entries,returned,?_⟩
    intro other data member
    exact rest other data (by simpa using member)
  | @failed _ mapPath =>
    refine ⟨current,entries,?_,fun other data member => rest other data (by simpa using member)⟩
    intro other node member
    rcases List.mem_append.mp member with old | new
    · exact returned other node old
    · cases List.mem_singleton.mp new
  | @loaded mapPath data parsed =>
    refine ⟨current,entries,returned,?_⟩
    intro other stored member
    have either : (other = mapPath ∧ stored = data) ∨ .emplace other stored ∈ others := by simpa using member
    rcases either with ⟨rfl,rfl⟩ | old
    · exact ⟨s.disk,current,parsed⟩
    · exact rest other stored old
  | @emplaced mapPath data =>
    obtain ⟨stored,here,origin⟩ := tryEmplace_lookup s.cache mapPath data
    refine ⟨current,?_,?_,fun other data member => rest other data (by simpa using member)⟩
    · intro other entry found
      by_cases same : other = mapPath
      · subst same
        cases here.symm.trans found
        rcases origin with rfl | old
        · exact pending other stored (List.mem_cons_self ..)
        · exact entries other _ old
      · exact entries other entry ((tryEmplace_other s.cache data same).symm.trans found)
    · intro other node member
      rcases List.mem_append.mp member with old | new
      · obtain ⟨value,found⟩ := returned other node old
        exact ⟨value,tryEmplace_keeps data found⟩
      · cases List.mem_singleton.mp new
        exact ⟨stored,here⟩

end Steps

-- What holds from a state on: its entries stay, and a map returned is one of
-- them, parsed from what a file had held by then, and returned ever after.
def Stable (readDoc : StdString → Option JsonDoc) (library : DocLibrary) (pool : Pool) : Prop :=
  ∀ later last, Machine.run (step readDoc library) pool later = some last →
    (∀ mapPath entry, pool.1.cache.maps.lookup mapPath = some entry → last.1.cache.maps.lookup mapPath = some entry) ∧
    ∀ mapPath node, (mapPath,some node) ∈ pool.1.returned →
      (∃ data, pool.1.cache.maps.lookup mapPath = some ⟨node,data⟩ ∧ Had readDoc library pool.1 mapPath data) ∧
      ∀ other, (mapPath,some other) ∈ last.1.returned → other = node

-- Only a call that returns a map writes to the cache.
def WritesReturned (pool : Pool) (_ : Event) (next : Pool) : Prop :=
  next.1.cache = pool.1.cache ∨ ∃ mapPath node, next.1.returned = pool.1.returned ++ [(mapPath,some node)]

section Runs
variable {pool next last : Pool} {event : Event}

theorem step_extends (stepped : step readDoc library pool event = some next) : Extends pool.1 next.1 := by
  cases event with
  | loadMapData mapPath => cases stepped; exact .refl _
  | goesOn index fails =>
    obtain ⟨action,_,_,state,_⟩ := advance_pending stepped
    rw [state]
    exact ran_extends (perform_ran pool.1 fails action)
  | rewrite disk => cases stepped; exact ⟨fun _ _ found => found,List.subset_append_left _ _,List.Subset.refl _⟩

theorem step_sound (sound : Sound readDoc library pool.1 pool.2.flatten) (stepped : step readDoc library pool event = some next) :
    Sound readDoc library next.1 next.2.flatten := by
  cases event with
  | loadMapData mapPath =>
    cases stepped
    refine ⟨sound.current,sound.entries,sound.returned,?_⟩
    intro other data member
    exact sound.pending other data (by simpa using member)
  | goesOn index fails =>
    exact advance_preserves (fun _ _ _ sound same => sound_perm sound same)
      (fun s choice action _ sound => ran_sound sound (perform_ran s choice action)) sound stepped
  | rewrite disk =>
    have grows := step_extends stepped
    cases stepped
    refine ⟨List.mem_append_right _ (List.mem_singleton_self disk),?_,sound.returned,?_⟩
    · intro mapPath entry found
      exact had_extends grows (sound.entries mapPath entry found)
    · intro mapPath data member
      exact had_extends grows (sound.pending mapPath data member)

theorem run_extends {events : List Event} (path : Machine.run (step readDoc library) pool events = some last) :
    Extends pool.1 last.1 := by
  have kept : ∀ (reached : Pool) event next, Extends pool.1 reached.1 → step readDoc library reached event = some next →
      Extends pool.1 next.1 := fun _ _ _ grows stepped => grows.trans (step_extends stepped)
  exact Machine.run_preserves kept (.refl pool.1) path

theorem run_sound {events : List Event} (sound : Sound readDoc library pool.1 pool.2.flatten)
    (path : Machine.run (step readDoc library) pool events = some last) : Sound readDoc library last.1 last.2.flatten := by
  have kept : ∀ (reached : Pool) event next, Sound readDoc library reached.1 reached.2.flatten →
      step readDoc library reached event = some next → Sound readDoc library next.1 next.2.flatten :=
    fun _ _ _ sound stepped => step_sound sound stepped
  exact Machine.run_preserves kept sound path

theorem sound_stable (sound : Sound readDoc library pool.1 pool.2.flatten) : Stable readDoc library pool := by
  intro later last path
  have grows := run_extends path
  have after := run_sound sound path
  refine ⟨grows.entries,?_⟩
  intro mapPath node returned
  obtain ⟨data,found⟩ := sound.returned mapPath node returned
  refine ⟨⟨data,found,sound.entries mapPath _ found⟩,?_⟩
  intro other again
  obtain ⟨value,listed⟩ := after.returned mapPath other again
  cases (grows.entries mapPath _ found).symm.trans listed
  rfl

theorem step_writes (stepped : step readDoc library pool event = some next) : WritesReturned pool event next := by
  cases event with
  | loadMapData mapPath => cases stepped; exact .inl rfl
  | goesOn index fails =>
    obtain ⟨action,_,_,state,_⟩ := advance_pending stepped
    have ran : Ran readDoc library pool.1 action (perform readDoc library pool.1 fails action) := perform_ran pool.1 fails action
    unfold WritesReturned
    rw [state]
    generalize perform readDoc library pool.1 fails action = effect at ran
    cases ran with
    | hit found => exact .inl rfl
    | missed => exact .inl rfl
    | failed => exact .inl rfl
    | loaded parsed => exact .inl rfl
    | emplaced => exact .inr ⟨_,_,rfl⟩
  | rewrite disk => cases stepped; exact .inl rfl

theorem start_sound (disk : Disk) : Sound readDoc library (start disk).1 (start disk).2.flatten :=
  ⟨List.mem_singleton_self disk,nofun,nofun,nofun⟩

end Runs

-- For every parser, any threads and any changes to the files, in every order.
theorem map_cache_stable (readDoc : StdString → Option JsonDoc) (library : DocLibrary) (disk : Disk) (events : List Event) :
    Machine.Always (step readDoc library) (Stable readDoc library) (start disk) events ∧
      Machine.Every (step readDoc library) WritesReturned (start disk) events := by
  refine ⟨?_,?_⟩
  · intro earlier later reached _ path
    exact sound_stable (run_sound (start_sound disk) path)
  · rw [Machine.every_iff]
    intro earlier event later reached next _ _ stepped
    exact step_writes stepped

end GameMap
end GameServer
