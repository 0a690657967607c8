import GameServer.Foundation.Json
import GameServer.RealCommands

namespace GameServer
open Foundation RuntimeData

namespace JSONTranslator

def createGameCommandJSON (cmdType : UInt8) (cmdData : StdString) : StdString :=
  stdString "\x7b\"cmd_type\":" ++ Json.digits cmdType.toNat ++ stdString ",\"cmd_data\":" ++ cmdData ++ stdString "\x7d"

-- A text of a value: the library reads it as the value, by itself and where it is
-- the cmd_data of a command.
structure TextOf (library : DocLibrary) (text : StdString) (doc : JsonDoc) : Prop where
  alone : library.parse text = some doc
  inside : ∀ cmdType ∈ gameCmds, ∃ members, library.parse (createGameCommandJSON cmdType text) = some (.object members) ∧
    JsonDoc.find members (stdString "cmd_type") = some (.unsigned cmdType.toUInt64) ∧
    JsonDoc.find members (stdString "cmd_data") = some doc

-- What has been parsed comes back when it is written and parsed again, as the same
-- value: a zero that was written with a sign comes back without one.
def RoundTrips (library : DocLibrary) : Prop := ∀ text doc, library.parse text = some doc →
  ∃ again, (library.dump doc).bind library.parse = some again ∧ again.normal = doc.normal

def otherFields (cmdType : UInt8) : List String := if cmdType = gameCmdGrow then [] else valueFields cmdType

structure Carries (cmd : BattleCmd) (cmdType : UInt8) (first second : UInt64) : Prop where
  player : cmd.playerId = 0
  type : cmd.type = battleCmdType cmdType
  first : cmd.param1.toUInt32.toNat = first.toNat % 2 ^ 32
  second : cmd.param2.toUInt32.toNat = second.toNat % 2 ^ 32

section Spellings
variable {library : DocLibrary} {cmdType : UInt8} {text other : StdString} {fields : List (StdString × JsonDoc)}

theorem word_congr {doc again : JsonDoc} (same : again.normal = doc.normal) (key : String) :
    word library again key = word library doc key := by
  have blind (doc : JsonDoc) : word library doc.normal key = word library doc key :=
    JsonDoc.value_normal (JsonDoc.getUnsigned_normal library) doc _ _
  rw [← blind again,same,blind]

theorem parsePayload_congr {doc again : JsonDoc} (one : library.parse text = some doc) (two : library.parse other = some again)
    (same : again.normal = doc.normal) : parsePayload library cmdType other = parsePayload library cmdType text := by
  unfold parsePayload
  rw [one,two]
  simp only [Option.bind_eq_bind,Option.bind_some,word_congr same]

theorem known_type (known : cmdType ∈ gameCmds) : cmdType.toUInt64.toUInt32.toInt32.toUInt32.toUInt8 = cmdType := by
  simp only [gameCmds,List.mem_cons,List.not_mem_nil,or_false] at known
  rcases known with rfl | rfl | rfl <;> rfl

theorem created_payload {doc : JsonDoc} {kept : StdString} (known : cmdType ∈ gameCmds) (spelled : TextOf library text doc)
    (data : ∀ members, JsonDoc.find members (stdString "cmd_data") = some doc → cmdDataText library (.object members) = some kept) :
    parseJsonCommand library (createGameCommandJSON cmdType text) = parsePayload library cmdType kept := by
  obtain ⟨members,root,type,found⟩ := spelled.inside cmdType known
  have typed : (JsonDoc.object members).at_ (stdString "cmd_type") = some (.unsigned cmdType.toUInt64) := type
  simp only [parseJsonCommand,root,Option.bind_eq_bind,Option.bind_some,typed,JsonDoc.getInt,data members found,known_type known]

theorem object_payload (known : cmdType ∈ gameCmds) (documented : RoundTrips library)
    (spelled : TextOf library text (.object fields)) :
    parseJsonCommand library (createGameCommandJSON cmdType text) = parsePayload library cmdType text := by
  obtain ⟨again,back,same⟩ := documented text _ spelled.alone
  obtain ⟨kept,dumped,parsed⟩ := Option.bind_eq_some_iff.mp back
  have data : ∀ members, JsonDoc.find members (stdString "cmd_data") = some (.object fields) →
      cmdDataText library (.object members) = some kept := by
    intro members found
    simp only [cmdDataText,JsonDoc.at_,found]
    exact dumped
  rw [created_payload known spelled data]
  exact parsePayload_congr spelled.alone parsed same

theorem string_payload (known : cmdType ∈ gameCmds) (quoted : TextOf library other (.string text)) :
    parseJsonCommand library (createGameCommandJSON cmdType other) = parsePayload library cmdType text := by
  refine created_payload known quoted ?_
  intro members found
  simp only [cmdDataText,JsonDoc.at_,found]

theorem unsigned_readable {name : String} {number : UInt64} (found : JsonDoc.find fields (stdString name) = some (.unsigned number)) :
    Readable library fields name ∧ fieldWord library fields name = number.toUInt32 := by
  refine ⟨?_,?_⟩
  · intro doc there
    cases found.symm.trans there
    rfl
  · unfold fieldWord
    rw [found]
    rfl

theorem readable_split (known : cmdType ∈ gameCmds) (first : Readable library fields (paramFields cmdType).1)
    (second : Readable library fields (paramFields cmdType).2) :
    (∀ name ∈ idFields cmdType ++ valueFields cmdType, Readable library fields name) ↔
      ∀ name ∈ otherFields cmdType, Readable library fields name := by
  simp only [gameCmds,List.mem_cons,List.not_mem_nil,or_false] at known
  rcases known with rfl | rfl | rfl
  · have params : paramFields gameCmdMove = ("source_id","dest_id") := rfl
    have others : otherFields gameCmdMove = ["value"] := rfl
    rw [params] at first second
    simp [move_fields,others,first,second]
  · have params : paramFields gameCmdAttack = ("source_id","dest_id") := rfl
    have others : otherFields gameCmdAttack = ["source_value","dest_value"] := rfl
    rw [params] at first second
    simp [attack_fields,others,first,second]
  · have params : paramFields gameCmdGrow = ("target_tile_id","grow_value") := rfl
    have others : otherFields gameCmdGrow = [] := rfl
    rw [params] at first second
    simp [grow_fields,others,first,second]

theorem payload_carries {first second : UInt64} (known : cmdType ∈ gameCmds) (data : library.parse text = some (.object fields))
    (one : JsonDoc.find fields (stdString (paramFields cmdType).1) = some (.unsigned first))
    (two : JsonDoc.find fields (stdString (paramFields cmdType).2) = some (.unsigned second))
    (others : ∀ name ∈ otherFields cmdType, Readable library fields name) :
    ∃ payload, parsePayload library cmdType text = some payload ∧ Carries payload.battleCmd cmdType first second := by
  obtain ⟨readable,word⟩ := @unsigned_readable library _ _ _ one
  obtain ⟨readable_,word_⟩ := @unsigned_readable library _ _ _ two
  obtain ⟨payload,parsed,-,cmd⟩ := fields_parsePayload known data ((readable_split known readable readable_).mpr others)
  refine ⟨payload,parsed,?_⟩
  rw [cmd,word,word_]
  exact ⟨rfl,rfl,rfl,rfl⟩

theorem payload_none {first second : UInt64} (known : cmdType ∈ gameCmds) (data : library.parse text = some (.object fields))
    (one : JsonDoc.find fields (stdString (paramFields cmdType).1) = some (.unsigned first))
    (two : JsonDoc.find fields (stdString (paramFields cmdType).2) = some (.unsigned second))
    (others : ¬ ∀ name ∈ otherFields cmdType, Readable library fields name) : parsePayload library cmdType text = none := by
  rw [Option.eq_none_iff_forall_not_mem]
  intro payload parsed
  obtain ⟨_,again,data_,readable,-⟩ := parsePayload_read parsed
  cases data.symm.trans data_
  exact others ((readable_split known (unsigned_readable one).1 (unsigned_readable two).1).mp readable)

end Spellings

-- Both spellings give one command; with unsigned parameters it is the one meant,
-- unless another field that is there is neither a number nor a boolean.
theorem command_round_trip {library : DocLibrary} {cmdType : UInt8} {text other : StdString} {fields : List (StdString × JsonDoc)}
    (known : cmdType ∈ gameCmds) (documented : RoundTrips library) (spelled : TextOf library text (.object fields))
    (quoted : TextOf library other (.string text)) :
    parseCommand library (createGameCommandJSON cmdType text) = parseCommand library (createGameCommandJSON cmdType other) ∧
      ∀ first second, JsonDoc.find fields (stdString (paramFields cmdType).1) = some (.unsigned first) →
        JsonDoc.find fields (stdString (paramFields cmdType).2) = some (.unsigned second) →
        ((∀ name ∈ otherFields cmdType, Readable library fields name) →
          Carries (parseCommand library (createGameCommandJSON cmdType text)) cmdType first second) ∧
        ((¬ ∀ name ∈ otherFields cmdType, Readable library fields name) →
          parseCommand library (createGameCommandJSON cmdType text) = ⟨0,.move,0,0⟩) := by
  unfold parseCommand
  rw [object_payload known documented spelled,string_payload known quoted]
  refine ⟨rfl,?_⟩
  intro first second one two
  refine ⟨?_,?_⟩
  · intro others
    obtain ⟨payload,parsed,carries⟩ := payload_carries known spelled.alone one two others
    rw [parsed]
    exact carries
  · intro others
    rw [payload_none known spelled.alone one two others]

-- A move from tile 1 to tile 2 with the value given, and the documents it comes in.
inductive Sample where
  | fields
  | text
  | command (cmdType : UInt8) (quoted : Bool)
deriving DecidableEq

structure SampleMove where
  value : JsonDoc
  valueText : StdString

namespace SampleMove

def fields (move : SampleMove) : List (StdString × JsonDoc) :=
  [(stdString "dest_id",.unsigned 2),(stdString "source_id",.unsigned 1),(stdString "value",move.value)]

def text (move : SampleMove) : StdString :=
  stdString "\x7b\"dest_id\":2,\"source_id\":1,\"value\":" ++ move.valueText ++ stdString "\x7d"

def spelling (move : SampleMove) (quoted : Bool) : StdString := if quoted then Json.quoted move.text else move.text

def doc (move : SampleMove) : Sample → JsonDoc
  | .fields => .object move.fields
  | .text => .string move.text
  | .command cmdType quoted => .object [
      (stdString "cmd_data",if quoted then .string move.text else .object move.fields),
      (stdString "cmd_type",.unsigned cmdType.toUInt64)]

def dumped (move : SampleMove) : Sample → StdString
  | .fields => move.text
  | .text => Json.quoted move.text
  | .command cmdType quoted => stdString "\x7b\"cmd_data\":" ++ move.spelling quoted ++ stdString ",\"cmd_type\":" ++
      Json.digits cmdType.toNat ++ stdString "\x7d"

def samples : List Sample := [.fields,.text] ++ gameCmds.flatMap fun cmdType => [.command cmdType false,.command cmdType true]

def table (move : SampleMove) : List (StdString × Sample) :=
  samples.map (fun sample => (move.dumped sample,sample)) ++ gameCmds.flatMap fun cmdType =>
    [false,true].map fun quoted => (createGameCommandJSON cmdType (move.spelling quoted),.command cmdType quoted)

def sampleAt (move : SampleMove) (text : StdString) : Option Sample := (move.table.find? fun entry => entry.1 = text).map Prod.snd

def sampleOf : JsonDoc → Option Sample
  | .string _ => some .text
  | .object members =>
    match JsonDoc.find members (stdString "cmd_type"),JsonDoc.find members (stdString "cmd_data") with
    | some (.unsigned cmdType),some (.string _) => some (.command cmdType.toUInt8 true)
    | some (.unsigned cmdType),some _ => some (.command cmdType.toUInt8 false)
    | _,_ => some .fields
  | _ => none

def library (move : SampleMove) : DocLibrary where
  parse text := (move.sampleAt text).map move.doc
  dump doc := (sampleOf doc).map move.dumped
  floatToUnsigned _ := 0
  floatToInt _ := 0

def Checked (move : SampleMove) : Prop := ∀ sample ∈ samples, sampleOf (move.doc sample) = some sample ∧
  move.sampleAt (move.dumped sample) = some sample

def Spelled (move : SampleMove) : Prop := ∀ cmdType ∈ gameCmds, ∀ quoted ∈ [false,true],
  move.sampleAt (createGameCommandJSON cmdType (move.spelling quoted)) = some (.command cmdType quoted)

instance (move : SampleMove) : Decidable move.Checked := inferInstanceAs (Decidable (∀ sample ∈ samples, _))
instance (move : SampleMove) : Decidable move.Spelled := inferInstanceAs (Decidable (∀ cmdType ∈ gameCmds, _))

variable {move : SampleMove}

theorem sampleAt_listed {text : StdString} {sample : Sample} (found : move.sampleAt text = some sample) : sample ∈ samples := by
  obtain ⟨entry,looked,rfl⟩ := Option.map_eq_some_iff.mp found
  have inside := List.mem_of_find?_eq_some looked
  have commands : ∀ cmdType ∈ gameCmds, ∀ quoted ∈ [false,true], Sample.command cmdType quoted ∈ samples := by decide +kernel
  rcases List.mem_append.mp inside with written | made
  · obtain ⟨sample,member,rfl⟩ := List.mem_map.mp written
    exact member
  · obtain ⟨cmdType,known,made⟩ := List.mem_flatMap.mp made
    obtain ⟨quoted,either,rfl⟩ := List.mem_map.mp made
    exact commands cmdType known quoted either

theorem roundTrips (checked : move.Checked) : RoundTrips move.library := by
  intro text doc parsed
  obtain ⟨sample,found,rfl⟩ := Option.map_eq_some_iff.mp parsed
  obtain ⟨known,read⟩ := checked sample (sampleAt_listed found)
  have dumps : move.library.dump (move.doc sample) = some (move.dumped sample) := congrArg (Option.map move.dumped) known
  refine ⟨_,?_,rfl⟩
  rw [dumps]
  exact congrArg (Option.map move.doc) read

theorem textOf {sample : Sample} {quoted : Bool} (checked : move.Checked) (spelled : move.Spelled) (listed : sample ∈ samples)
    (text : move.dumped sample = move.spelling quoted)
    (doc : move.doc sample = if quoted then .string move.text else .object move.fields) :
    TextOf move.library (move.spelling quoted) (move.doc sample) := by
  have keys : stdString "cmd_data" ≠ stdString "cmd_type" := by decide +kernel
  refine ⟨?_,?_⟩
  · rw [← text]
    exact congrArg (Option.map move.doc) (checked sample listed).2
  · intro cmdType known
    refine ⟨_,congrArg (Option.map move.doc) (spelled cmdType known quoted (by cases quoted <;> decide)),?_,?_⟩
    · simp [JsonDoc.find,keys]
    · simp [JsonDoc.find,doc]

end SampleMove

def plainMove : SampleMove := ⟨.unsigned 5,stdString "5"⟩
def wordedMove : SampleMove := ⟨.string (stdString "x"),stdString "\"x\""⟩

theorem samples_documented : (plainMove.Checked ∧ plainMove.Spelled) ∧ wordedMove.Checked ∧ wordedMove.Spelled := by
  decide +kernel

theorem plain_move_read :
    parseCommand plainMove.library (createGameCommandJSON gameCmdMove plainMove.text) =
        parseCommand plainMove.library (createGameCommandJSON gameCmdMove (Json.quoted plainMove.text)) ∧
      ∀ first second, JsonDoc.find plainMove.fields (stdString (paramFields gameCmdMove).1) = some (.unsigned first) →
        JsonDoc.find plainMove.fields (stdString (paramFields gameCmdMove).2) = some (.unsigned second) →
        ((∀ name ∈ otherFields gameCmdMove, Readable plainMove.library plainMove.fields name) →
          Carries (parseCommand plainMove.library (createGameCommandJSON gameCmdMove plainMove.text)) gameCmdMove first second) ∧
        ((¬ ∀ name ∈ otherFields gameCmdMove, Readable plainMove.library plainMove.fields name) →
          parseCommand plainMove.library (createGameCommandJSON gameCmdMove plainMove.text) = ⟨0,.move,0,0⟩) := by
  obtain ⟨⟨checked,spelled⟩,-⟩ := samples_documented
  exact command_round_trip (by decide) (SampleMove.roundTrips checked)
    (@SampleMove.textOf plainMove .fields false checked spelled (by decide) rfl rfl)
    (@SampleMove.textOf plainMove .text true checked spelled (by decide) rfl rfl)

-- A move from 1 to 2 whose value is a word: the ids are unsigned, and it is dropped.
theorem worded_move_dropped : RoundTrips wordedMove.library ∧ TextOf wordedMove.library wordedMove.text (.object wordedMove.fields) ∧
    TextOf wordedMove.library (Json.quoted wordedMove.text) (.string wordedMove.text) ∧
    JsonDoc.find wordedMove.fields (stdString (paramFields gameCmdMove).1) = some (.unsigned 1) ∧
    JsonDoc.find wordedMove.fields (stdString (paramFields gameCmdMove).2) = some (.unsigned 2) ∧
    ¬ Carries (parseCommand wordedMove.library (createGameCommandJSON gameCmdMove wordedMove.text)) gameCmdMove 1 2 := by
  obtain ⟨-,checked,spelled⟩ := samples_documented
  have documented := SampleMove.roundTrips checked
  have plain : TextOf wordedMove.library wordedMove.text (.object wordedMove.fields) :=
    @SampleMove.textOf wordedMove .fields false checked spelled (by decide) rfl rfl
  have quoted : TextOf wordedMove.library (Json.quoted wordedMove.text) (.string wordedMove.text) :=
    @SampleMove.textOf wordedMove .text true checked spelled (by decide) rfl rfl
  have params : paramFields gameCmdMove = ("source_id","dest_id") := rfl
  have keys : stdString "dest_id" ≠ stdString "source_id" ∧ stdString "dest_id" ≠ stdString "value" ∧
      stdString "source_id" ≠ stdString "value" := by decide +kernel
  have one : JsonDoc.find wordedMove.fields (stdString (paramFields gameCmdMove).1) = some (.unsigned 1) := by
    simp [JsonDoc.find,SampleMove.fields,params,keys]
  have two : JsonDoc.find wordedMove.fields (stdString (paramFields gameCmdMove).2) = some (.unsigned 2) := by
    simp [JsonDoc.find,SampleMove.fields,params]
  have word : JsonDoc.find wordedMove.fields (stdString "value") = some (.string (stdString "x")) := by
    simp [JsonDoc.find,SampleMove.fields,keys,wordedMove]
  refine ⟨documented,plain,quoted,one,two,?_⟩
  have unread : ¬ ∀ name ∈ otherFields gameCmdMove, Readable wordedMove.library wordedMove.fields name := by
    intro readable
    exact absurd (readable "value" (by decide) _ word) (by decide)
  intro carries
  unfold parseCommand at carries
  rw [object_payload (by decide) documented plain,payload_none (by decide) plain.alone one two unread] at carries
  exact absurd carries.first (by decide)

end JSONTranslator
end GameServer
