import GameServer.TileNames

namespace GameServer
open Foundation RuntimeData

namespace JSONTranslator

def idFields (cmdType : UInt8) : List String :=
  if cmdType = gameCmdGrow then ["target_tile_id"] else ["source_id","dest_id"]

def valueFields (cmdType : UInt8) : List String :=
  if cmdType = gameCmdMove then ["value"]
  else if cmdType = gameCmdAttack then ["source_value","dest_value"]
  else ["grow_value"]

def gameCmds : List UInt8 := [gameCmdMove,gameCmdAttack,gameCmdGrow]

def battleCmdType (cmdType : UInt8) : BattleCmdType :=
  if cmdType = gameCmdMove then .move
  else if cmdType = gameCmdAttack then .attack
  else .grow

def paramFields (cmdType : UInt8) : String × String :=
  if cmdType = gameCmdGrow then ("target_tile_id","grow_value") else ("source_id","dest_id")

def IsInteger (value : Int) : JsonDoc → Prop
  | .unsigned number => (number.toNat : Int) = value
  | .integer number => number.toInt = value
  | _ => False

def Holds (library : DocLibrary) (doc : JsonDoc) (members : List (StdString × JsonDoc)) : Prop :=
  doc = .object members ∨ ∃ text, doc = .string text ∧ library.parse text = some (.object members)

structure RealCommand (library : DocLibrary) (members fields : List (StdString × JsonDoc)) (cmdType : UInt8) : Prop where
  known : cmdType ∈ gameCmds
  type : ∃ doc, JsonDoc.find members (stdString "cmd_type") = some doc ∧ IsInteger cmdType.toNat doc
  data : ∃ doc, JsonDoc.find members (stdString "cmd_data") = some doc ∧ Holds library doc fields
  ids : ∀ name ∈ idFields cmdType, ∃ doc id, JsonDoc.find fields (stdString name) = some doc ∧ IsInteger id doc

def Real (library : DocLibrary) (jsonStr : StdString) : Prop :=
  ∃ members fields cmdType, library.parse jsonStr = some (.object members) ∧ RealCommand library members fields cmdType

-- Whoever sends the text and whatever the match, it is refused and nothing changes.
def Refused (library : DocLibrary) (jsonStr : StdString) : Prop := ∀ iteration (rt : RuntimeData) playerId, ∃ error,
  processCommand iteration rt { parseCommand library jsonStr with playerId := playerId } = .thrown error rt

def fieldWord (library : DocLibrary) (fields : List (StdString × JsonDoc)) (name : String) : UInt32 :=
  ((JsonDoc.find fields (stdString name)).bind (JsonDoc.getUnsigned library)).getD 0

def Readable (library : DocLibrary) (fields : List (StdString × JsonDoc)) (name : String) : Prop :=
  ∀ doc, JsonDoc.find fields (stdString name) = some doc → (doc.getUnsigned library).isSome

-- Tile ids that some board has: no two alike, and all of them places of a vector.
def OnABoard (ids : List UInt32) : Prop := ids.Nodup ∧ ∀ id ∈ ids, id.toNat < 2 ^ 31

structure Playable (library : DocLibrary) (fields : List (StdString × JsonDoc)) (cmdType : UInt8) : Prop where
  known : cmdType ∈ gameCmds
  readable : ∀ name ∈ idFields cmdType ++ valueFields cmdType, Readable library fields name
  ids : OnABoard ((idFields cmdType).map (fieldWord library fields))

-- A text that goes through: its cmd_type is a number of any kind with the
-- command in its low byte, and its cmd_data gives what it likes of the fields.
def GoesThrough (library : DocLibrary) (jsonStr : StdString) : Prop :=
  ∃ members doc number text fields, library.parse jsonStr = some (.object members) ∧
    JsonDoc.find members (stdString "cmd_type") = some doc ∧ doc.getInt library = some number ∧
    cmdDataText library (.object members) = some text ∧ library.parse text = some (.object fields) ∧
    Playable library fields number.toUInt32.toUInt8

theorem move_fields : idFields gameCmdMove = ["source_id","dest_id"] ∧ valueFields gameCmdMove = ["value"] := ⟨rfl,rfl⟩

theorem attack_fields : idFields gameCmdAttack = ["source_id","dest_id"] ∧
    valueFields gameCmdAttack = ["source_value","dest_value"] := ⟨rfl,rfl⟩

theorem grow_fields : idFields gameCmdGrow = ["target_tile_id"] ∧ valueFields gameCmdGrow = ["grow_value"] := ⟨rfl,rfl⟩

section Fields
variable {library : DocLibrary} {fields : List (StdString × JsonDoc)} {name : String}

theorem word_object {word_ : UInt32} : word library (.object fields) name = some word_ ↔
    Readable library fields name ∧ fieldWord library fields name = word_ := by
  unfold word JsonDoc.value Readable fieldWord
  dsimp only
  cases found : JsonDoc.find fields (stdString name) with
  | none => simp
  | some doc =>
    cases read : doc.getUnsigned library with
    | none => simp [read]
    | some number => simp [read]

theorem word_doc {doc : JsonDoc} {word_ : UInt32} (read : word library doc name = some word_) :
    ∃ fields, doc = .object fields := by
  cases doc with
  | object fields => exact ⟨fields,rfl⟩
  | _ => cases read

end Fields

section Payloads
variable {library : DocLibrary} {cmdType : UInt8} {text jsonStr : StdString} {payload : JsonPayload}

-- What is known of cmd_data once a payload has been read from it.
def FieldsRead (library : DocLibrary) (cmdType : UInt8) (text : StdString) (ids : List UInt32) : Prop :=
  ∃ fields, library.parse text = some (.object fields) ∧
    (∀ name ∈ idFields cmdType ++ valueFields cmdType, Readable library fields name) ∧
    (idFields cmdType).map (fieldWord library fields) = ids

theorem parsePayload_read (parsed : parsePayload library cmdType text = some payload) :
    cmdType ∈ gameCmds ∧ FieldsRead library cmdType text payload.tileIds := by
  unfold parsePayload at parsed
  split at parsed
  · rename_i kind
    subst kind
    simp only [Option.bind_eq_bind,Option.bind_eq_some_iff,Option.pure_def,Option.some.injEq] at parsed
    obtain ⟨doc,data,source,first,dest,second,value,third,rfl⟩ := parsed
    obtain ⟨fields,rfl⟩ := word_doc first
    rw [word_object] at first second third
    refine ⟨by decide,fields,data,?_,?_⟩
    · simp [move_fields,first.1,second.1,third.1]
    · simp [move_fields,JsonPayload.tileIds,first.2,second.2]
  split at parsed
  · rename_i kind
    subst kind
    simp only [Option.bind_eq_bind,Option.bind_eq_some_iff,Option.pure_def,Option.some.injEq] at parsed
    obtain ⟨doc,data,source,first,dest,second,mine,third,theirs,fourth,rfl⟩ := parsed
    obtain ⟨fields,rfl⟩ := word_doc first
    rw [word_object] at first second third fourth
    refine ⟨by decide,fields,data,?_,?_⟩
    · simp [attack_fields,first.1,second.1,third.1,fourth.1]
    · simp [attack_fields,JsonPayload.tileIds,first.2,second.2]
  split at parsed
  · rename_i kind
    subst kind
    simp only [Option.bind_eq_bind,Option.bind_eq_some_iff,Option.pure_def,Option.some.injEq] at parsed
    obtain ⟨doc,data,target,first,amount,second,rfl⟩ := parsed
    obtain ⟨fields,rfl⟩ := word_doc first
    rw [word_object] at first second
    refine ⟨by decide,fields,data,?_,?_⟩
    · simp [grow_fields,first.1,second.1]
    · simp [grow_fields,JsonPayload.tileIds,first.2]
  · cases parsed

theorem fields_parsePayload {fields : List (StdString × JsonDoc)} (known : cmdType ∈ gameCmds)
    (data : library.parse text = some (.object fields))
    (readable : ∀ name ∈ idFields cmdType ++ valueFields cmdType, Readable library fields name) :
    ∃ payload, parsePayload library cmdType text = some payload ∧
      payload.tileIds = (idFields cmdType).map (fieldWord library fields) ∧
      payload.battleCmd = ⟨0,battleCmdType cmdType,(fieldWord library fields (paramFields cmdType).1).toInt32,
        (fieldWord library fields (paramFields cmdType).2).toInt32⟩ := by
  have each : ∀ name ∈ idFields cmdType ++ valueFields cmdType,
      word library (.object fields) name = some (fieldWord library fields name) := by
    intro name member
    exact word_object.mpr ⟨readable name member,rfl⟩
  simp only [gameCmds,List.mem_cons,List.not_mem_nil,or_false] at known
  rcases known with rfl | rfl | rfl
  · simp only [move_fields,List.cons_append,List.nil_append,List.forall_mem_cons] at each
    obtain ⟨source,dest,value,_⟩ := each
    refine ⟨.move ⟨fieldWord library fields "source_id",fieldWord library fields "dest_id",
      fieldWord library fields "value"⟩,?_,rfl,rfl⟩
    simp [parsePayload,data,source,dest,value]
  · simp only [attack_fields,List.cons_append,List.nil_append,List.forall_mem_cons] at each
    obtain ⟨source,dest,mine,theirs,_⟩ := each
    refine ⟨.attack ⟨fieldWord library fields "source_id",fieldWord library fields "dest_id",
      fieldWord library fields "source_value",fieldWord library fields "dest_value"⟩,?_,rfl,rfl⟩
    simp [parsePayload,gameCmdMove,gameCmdAttack,data,source,dest,mine,theirs]
  · simp only [grow_fields,List.cons_append,List.nil_append,List.forall_mem_cons] at each
    obtain ⟨target,amount,_⟩ := each
    refine ⟨.grow ⟨fieldWord library fields "target_tile_id",fieldWord library fields "grow_value"⟩,?_,rfl,rfl⟩
    simp [parsePayload,gameCmdMove,gameCmdAttack,gameCmdGrow,data,target,amount]

theorem read_parsePayload {ids : List UInt32} (known : cmdType ∈ gameCmds) (read : FieldsRead library cmdType text ids) :
    ∃ payload, parsePayload library cmdType text = some payload ∧ payload.tileIds = ids := by
  obtain ⟨fields,data,readable,rfl⟩ := read
  obtain ⟨payload,parsed,ids,-⟩ := fields_parsePayload known data readable
  exact ⟨payload,parsed,ids⟩

theorem goesThrough_iff : GoesThrough library jsonStr ↔
    ∃ payload, parseJsonCommand library jsonStr = some payload ∧ OnABoard payload.tileIds := by
  refine ⟨?_,?_⟩
  · rintro ⟨members,doc,number,text,fields,root,type,read,data,inner,playable⟩
    obtain ⟨payload,parsed,ids⟩ := read_parsePayload playable.known ⟨fields,inner,playable.readable,rfl⟩
    refine ⟨payload,?_,ids ▸ playable.ids⟩
    have found : (JsonDoc.object members).at_ (stdString "cmd_type") = some doc := type
    simp [parseJsonCommand,root,found,read,data,parsed]
  · rintro ⟨payload,parsed,onABoard⟩
    simp only [parseJsonCommand,Option.bind_eq_bind,Option.bind_eq_some_iff] at parsed
    obtain ⟨doc,root,typeDoc,found,number,read,text,data,parsed⟩ := parsed
    cases doc with
    | object members =>
      obtain ⟨known,fields,inner,readable,ids⟩ := parsePayload_read parsed
      exact ⟨members,typeDoc,number,text,fields,root,found,read,data,inner,known,readable,ids ▸ onABoard⟩
    | _ => cases found

end Payloads

section Boards
variable {payload : JsonPayload} {playerId : UInt64}

def ownTile : TileData := { tileId := 0, owner := 1, value := 2, roundType := 0 }
def rivalTile : TileData := { ownTile with owner := 2 }

def campOf (size : Nat) : RuntimeData := { mapData := { tiles := List.replicate size ownTile } }
def siegeOf (size place : Nat) : RuntimeData := (campOf size).withTile place rivalTile

theorem campOf_tile {size place : Nat} (inside : place < size) :
    (campOf size).tile place = ownTile := by
  simp [campOf,tile,inside]

theorem campOf_index {size : Nat} {id : UInt32} (small : id.toNat < 2 ^ 31) (inside : id.toNat < size) :
    (campOf size).index id.toInt32 = some id.toNat := by
  have value : id.toInt32.toInt = id.toBitVec.toInt := rfl
  have same : id.toBitVec.toInt = id.toNat := by
    rw [BitVec.toInt_eq_toNat_cond,if_pos]
    · rfl
    · exact (by omega : 2 * id.toNat < 2 ^ 32)
  rw [index,value,same]
  simp [campOf,inside]

theorem accepted_onABoard {rt : RuntimeData} (accepted : rt.Accepted { payload.battleCmd with playerId := playerId }) :
    OnABoard payload.tileIds := by
  have place := accepted_place accepted
  have different := (accepted_guarded accepted).different
  refine ⟨?_,?_⟩
  · cases payload with
    | move mv =>
      have apart := different (Or.inl rfl) _ _ (place mv.sourceId (by simp [JsonPayload.tileIds]))
        (place mv.destId (by simp [JsonPayload.tileIds]))
      simpa [JsonPayload.tileIds] using fun same => apart (congrArg UInt32.toNat same)
    | attack at_ =>
      have apart := different (Or.inr rfl) _ _ (place at_.sourceId (by simp [JsonPayload.tileIds]))
        (place at_.destId (by simp [JsonPayload.tileIds]))
      simpa [JsonPayload.tileIds] using fun same => apart (congrArg UInt32.toNat same)
    | grow gr => exact List.nodup_singleton _
  · intro id member
    exact (index_bound rt (place id member)).2

theorem campOf_tileAt {size : Nat} {id : UInt32} (small : id.toNat < 2 ^ 31) (inside : id.toNat < size) :
    (campOf size).tileAt id.toInt32 = .ok ownTile := by
  rw [tileAt,campOf_index small inside]
  exact congrArg Except.ok (campOf_tile inside)

theorem pair_apart {one other : UInt32} {rest : List UInt32} (onABoard : OnABoard (one :: other :: rest)) :
    one.toInt32 ≠ other.toInt32 := by
  intro same
  have alike : one = other := congrArg Int32.toUInt32 same
  have distinct := onABoard.1
  simp [alike] at distinct

theorem onABoard_accepted (onABoard : OnABoard payload.tileIds) :
    ∃ (rt : RuntimeData) (playerId : UInt64), rt.Accepted { payload.battleCmd with playerId := playerId } := by
  obtain ⟨size,large⟩ : ∃ size : Nat, 2 ^ 31 ≤ size := ⟨_,Nat.le_refl _⟩
  have here : ∀ id ∈ payload.tileIds, (campOf size).tileAt id.toInt32 =
      .ok ownTile := by
    intro id member
    have small := onABoard.2 id member
    exact campOf_tileAt small (Nat.lt_of_lt_of_le small large)
  cases payload with
  | move mv =>
    refine ⟨campOf size,1,?_⟩
    have source := here mv.sourceId (List.mem_cons_self ..)
    have dest := here mv.destId (List.mem_cons_of_mem _ (List.mem_cons_self ..))
    have apart := pair_apart onABoard
    simp [Accepted,validateCmd,JsonPayload.battleCmd,ownTile,source,dest,apart,bind,Except.bind,pure,Except.pure]
  | attack at_ =>
    -- The tile that is attacked is another player's.
    refine ⟨siegeOf size at_.destId.toNat,1,?_⟩
    have apart := pair_apart onABoard
    have low := onABoard.2 at_.sourceId (List.mem_cons_self ..)
    have high := onABoard.2 at_.destId (List.mem_cons_of_mem _ (List.mem_cons_self ..))
    have source : (siegeOf size at_.destId.toNat).tileAt
        at_.sourceId.toInt32 = .ok ownTile := by
      rw [siegeOf,tileAt_withTile,here at_.sourceId (List.mem_cons_self ..)]
      rw [campOf_index low (Nat.lt_of_lt_of_le low large)]
      intro same
      have alike := UInt32.toNat_inj.mp (Option.some.inj same)
      exact apart (congrArg UInt32.toInt32 alike)
    have dest : (siegeOf size at_.destId.toNat).tileAt
        at_.destId.toInt32 = .ok rivalTile := by
      have inside : at_.destId.toNat < (campOf size).mapData.tiles.length := by
        simpa [campOf] using Nat.lt_of_lt_of_le high large
      rw [tileAt,siegeOf,withTile_index,campOf_index high (Nat.lt_of_lt_of_le high large)]
      dsimp only
      rw [withTile,setTile_tile _ _ _ _ inside,if_pos rfl]
    simp [Accepted,validateCmd,JsonPayload.battleCmd,ownTile,rivalTile,source,dest,apart,bind,Except.bind,pure,Except.pure]
  | grow gr =>
    refine ⟨campOf size,1,?_⟩
    have target := here gr.targetTileId (List.mem_cons_self ..)
    simp [Accepted,validateCmd,JsonPayload.battleCmd,ownTile,target,bind,Except.bind,pure,Except.pure]

end Boards

section Commands
variable {library : DocLibrary} {jsonStr : StdString}

theorem refused_exact : Refused library jsonStr ↔ ¬ GoesThrough library jsonStr := by
  rw [goesThrough_iff]
  refine ⟨?_,?_⟩
  · rintro refused ⟨payload,parsed,onABoard⟩
    obtain ⟨rt,playerId,accepted⟩ := onABoard_accepted onABoard
    obtain ⟨error,thrown⟩ := refused Battle.keyOrder rt playerId
    simp only [parseCommand,parsed] at thrown
    rcases processCommand_cases Battle.keyOrder rt { payload.battleCmd with playerId := playerId } with
      ⟨rejected,_⟩ | ⟨_,_,done,_⟩
    · exact rejected accepted
    · cases thrown.symm.trans done
  · intro stopped iteration rt playerId
    rcases processCommand_cases iteration rt { parseCommand library jsonStr with playerId := playerId } with
      ⟨_,thrown⟩ | ⟨accepted,_⟩
    · exact thrown
    · cases parsed : parseJsonCommand library jsonStr with
      | none => exact absurd accepted (unparsed_refused library parsed playerId)
      | some payload =>
        simp only [parseCommand,parsed] at accepted
        exact absurd ⟨payload,parsed,accepted_onABoard accepted⟩ stopped

def OnlyReal (library : DocLibrary) (jsonStr : StdString) : Prop := ¬ Real library jsonStr → Refused library jsonStr

-- Missing ids are defaulted and numbers of any kind cast, so that texts which
-- are no commands go through; all others are refused.
theorem only_real_exact (library : DocLibrary) (jsonStr : StdString) :
    OnlyReal library jsonStr ↔ Real library jsonStr ∨ ¬ GoesThrough library jsonStr := by
  rw [OnlyReal,refused_exact]
  exact or_iff_not_imp_left.symm

def aimlessText : StdString := stdString "\x7b\"cmd_type\":2,\"cmd_data\":\x7b\"grow_value\":5\x7d\x7d"
def aimlessDataText : StdString := stdString "\x7b\"grow_value\":5\x7d"

def aimlessData : List (StdString × JsonDoc) := [(stdString "grow_value",.unsigned 5)]
def aimlessRoot : List (StdString × JsonDoc) := [(stdString "cmd_data",.object aimlessData),(stdString "cmd_type",.unsigned 2)]

def aimlessLibrary : DocLibrary where
  parse text := if text = aimlessText then some (.object aimlessRoot)
    else if text = aimlessDataText then some (.object aimlessData) else none
  dump
    | .object [(_,.unsigned 5)] => some aimlessDataText
    | _ => none
  floatToUnsigned _ := 0
  floatToInt _ := 0

-- It has no target_tile_id, and grows tile 0.
theorem aimless_growth_accepted : ¬ OnlyReal aimlessLibrary aimlessText := by
  have root : aimlessLibrary.parse aimlessText = some (.object aimlessRoot) := if_pos rfl
  have data : aimlessLibrary.parse aimlessDataText = some (.object aimlessData) :=
    (if_neg (by decide +kernel)).trans (if_pos rfl)
  have keys : stdString "cmd_data" ≠ stdString "cmd_type" ∧ stdString "grow_value" ≠ stdString "target_tile_id" := by
    decide +kernel
  have type : JsonDoc.find aimlessRoot (stdString "cmd_type") = some (.unsigned 2) := by
    simp [JsonDoc.find,aimlessRoot,keys.1]
  have kept : JsonDoc.find aimlessRoot (stdString "cmd_data") = some (.object aimlessData) := by
    simp [JsonDoc.find,aimlessRoot]
  have missing : JsonDoc.find aimlessData (stdString "target_tile_id") = none := by
    simp [JsonDoc.find,aimlessData,keys.2]
  intro holds
  refine refused_exact.mp (holds ?_) ?_
  · rintro ⟨members,fields,cmdType,parsed,real⟩
    cases root.symm.trans parsed
    obtain ⟨typeDoc,found,isInteger⟩ := real.type
    cases type.symm.trans found
    have two : cmdType = 2 := UInt8.toNat_inj.mp (Int.ofNat.inj isInteger).symm
    subst two
    obtain ⟨dataDoc,found,held⟩ := real.data
    cases kept.symm.trans found
    rcases held with object | ⟨text,other,_⟩
    · cases object
      obtain ⟨doc,id,there,_⟩ := real.ids "target_tile_id" (List.mem_singleton_self _)
      cases missing.symm.trans there
    · cases other
  · have playable : Playable aimlessLibrary aimlessData gameCmdGrow := by
      refine ⟨by decide,?_,?_⟩
      · intro name member doc found
        rcases List.mem_pair.mp member with rfl | rfl
        · cases missing.symm.trans found
        · simp only [JsonDoc.find,aimlessData,List.find?_cons_of_pos,decide_true,Option.map_some] at found
          cases found
          rfl
      · have first : fieldWord aimlessLibrary aimlessData "target_tile_id" = 0 := by simp [fieldWord,missing]
        simp [grow_fields,OnABoard,first]
    have text : cmdDataText aimlessLibrary (.object aimlessRoot) = some aimlessDataText := by
      simp only [cmdDataText,JsonDoc.at_,kept]
      rfl
    exact ⟨aimlessRoot,.unsigned 2,2,aimlessDataText,aimlessData,root,type,rfl,text,data,playable⟩

end Commands

end JSONTranslator
end GameServer
