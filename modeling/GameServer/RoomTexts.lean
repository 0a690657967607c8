import GameServer.ServerRuns

namespace GameServer.Server
open Foundation RequestPayload

-- No exception leaves the handler, and a room it does not report is not left in rooms_.
structure Survives (library : JsonLibrary) (s : Server) (pack : MsgPack) (out : Outcome) : Prop where
  calm : out.thrown = false
  reported : pack.msg.subType = RoomReqType.createRoom → ¬ ReportsOk library out →
    ∀ roomId, out.server.lobby.getRoom roomId = s.lobby.getRoom roomId

def Unbroken (library : JsonLibrary) (s : Server) (turn : Turn) (pack : MsgPack) : Prop :=
  WellFormed pack.msg → pack.msg.subType ≠ RoomReqType.leaveRoom → Survives library s pack (s.handleRoom library turn pack)

theorem survives_speaks {library : JsonLibrary} {s : Server} {turn : Turn} {pack : MsgPack} {out : Outcome}
    (wellFormed : WellFormed pack.msg) (stays : pack.msg.subType ≠ RoomReqType.leaveRoom)
    (run : RoomRun library s turn pack out) : Survives library s pack out ↔ s.Speaks turn pack := by
  cases run with
  | @user lobby msg more n kind speaks served replies small reports aside =>
    refine iff_of_true ⟨rfl,?_⟩ speaks
    intro create unreported
    rcases reports create with ⟨info,said⟩ | same
    · exact (unreported ⟨msg,info,rfl,said⟩).elim
    · exact same
  | session kind speaks replies text =>
    refine iff_of_true ⟨rfl,?_⟩ speaks
    intro create
    rw [kind] at create
    exact absurd create (by decide)
  | idle kind => exact (stays kind).elim
  | throws mute served =>
    refine iff_of_false ?_ mute
    intro survives
    cases survives.calm
  | crashes reads empty => exact (wellFormed.filled reads empty).elim

-- Over whole runs: no creation, join or list ends the process or leaves a room
-- unreported exactly as long as each has only valid text to write down.
theorem room_texts_exact (library : JsonLibrary) (heap : Heap) (events : List Event) :
    Machine.Every (step library) (Upon (Unbroken library)) (start heap) events ↔
      Machine.Every (step library) (Upon fun s turn pack =>
        WellFormed pack.msg → pack.msg.subType ≠ RoomReqType.leaveRoom → s.Speaks turn pack) (start heap) events := by
  apply every_upon
  intro s turn pack live run
  refine forall_congr' fun wellFormed => forall_congr' fun stays => ?_
  exact survives_speaks wellFormed stays run

-- The byte 0xFF never occurs in UTF-8.
def createMsg : DecodedMessage := ⟨2,ProtoType.data,MsgType.roomReq,RoomReqType.createRoom,spelled [0xFF] []⟩

def namesRoom : List Event := [.connect,.receive 1 loginMsg,.runLogin blankTurn,.receive 1 createMsg]

-- A user names a room with one byte that is no text: the reply cannot be
-- written, and the room stays behind.
theorem unspeakable_name_throws : ¬ Machine.Every (step Json.compact) (Upon (Unbroken Json.compact)) (start Lobby.noInfos)
    (namesRoom ++ [.runRoom blankTurn]) := by
  intro every
  have seen : ((Machine.run (step Json.compact) (start Lobby.noInfos) namesRoom).bind fun reached =>
      (step Json.compact reached (.runRoom blankTurn)).bind fun _ => (reached.taken (.runRoom blankTurn)).map fun took =>
        (took.2.2,(took.1.handleRoom Json.compact took.2.1 took.2.2).thrown)) = some (⟨124,1,0,createMsg⟩,true) := by
    decide +kernel
  obtain ⟨at_,turn,pack,unbroken,shown⟩ := upon_seen every seen
  obtain ⟨same,thrown⟩ := Prod.mk.inj shown
  dsimp only at same thrown
  rw [same] at unbroken thrown
  have starts : StartsWith createMsg.payload [0xFF] [] := spelled_starts (by decide) (by decide)
  have wellFormed : WellFormed createMsg := ⟨fun _ => ⟨[0xFF],[],starts⟩,fun codes => absurd codes (by decide)⟩
  have calm := (unbroken wellFormed (by decide)).calm
  rw [thrown] at calm
  cases calm

end GameServer.Server
