import GameServer.ServerRuns

namespace GameServer.Server
open Foundation Json JSONTranslator MTcpCodec

def responses (deliveries : List Delivery) : List Delivery :=
  deliveries.filter fun delivery => delivery.msg.mainType = MsgType.roomRsp

-- One response and no more, to the session the request came from and under its id and sub type.
def RepliedOnce (pack : MsgPack) (out : Outcome) : Prop := ∃ delivery, responses out.deliveries = [delivery] ∧
  delivery.sessionId = pack.senderSessionId ∧ delivery.msg.msgId = pack.msg.msgId ∧ delivery.msg.subType = pack.msg.subType

-- When a reply finds its way back: the session is still there, a creation or a
-- join comes from the session its user is bound to, nobody leaves, the texts to
-- be written are valid, and a list is not longer than a message may be.
structure Reaches (s : Server) (turn : Turn) (pack : MsgPack) : Prop where
  present : pack.senderSessionId ∈ s.sessions
  bound : pack.msg.subType = RoomReqType.createRoom ∨ pack.msg.subType = RoomReqType.joinRoom →
    s.users.getSessionId pack.senderId = pack.senderSessionId
  stays : pack.msg.subType ≠ RoomReqType.leaveRoom
  speaks : s.Speaks turn pack
  fits : pack.msg.subType = RoomReqType.listRooms → (roomList (s.getRoomList turn.rooms)).compactText.length ≤ maxDataSize

def Answered (library : JsonLibrary) (s : Server) (turn : Turn) (pack : MsgPack) : Prop :=
  WellFormed pack.msg → pack.msg.msgId ≠ 0 → RepliedOnce pack (s.handleRoom library turn pack)

section Replying
variable {library : JsonLibrary} {s : Server} {turn : Turn} {pack : MsgPack} {out : Outcome}

theorem repliedOnce_iff {sent : Prop} [Decidable sent] {delivery : Delivery} (replies : Replies pack delivery.msg)
    (deliveries : responses out.deliveries = if sent then [delivery] else []) :
    RepliedOnce pack out ↔ sent ∧ delivery.sessionId = pack.senderSessionId := by
  unfold RepliedOnce
  rw [deliveries]
  split
  · rename_i held
    rw [and_iff_right held]
    refine ⟨?_,fun home => ⟨delivery,rfl,home,replies.msgId,replies.subType⟩⟩
    rintro ⟨other,same,home,-,-⟩
    cases same
    exact home
  · rename_i missing
    refine iff_of_false ?_ (fun both => missing both.1)
    rintro ⟨other,same,-⟩
    cases same

theorem responses_reply {sent : Prop} [Decidable sent] {delivery : Delivery} (replies : Replies pack delivery.msg) :
    responses (if sent then [delivery] else []) = if sent then [delivery] else [] := by
  split
  · exact List.filter_cons_of_pos (decide_eq_true replies.mainType)
  · rfl

theorem responses_aside {first more : List Delivery} (aside : ∀ delivery ∈ more, delivery.msg.mainType ≠ MsgType.roomRsp) :
    responses (first ++ more) = responses first := by
  have none_ : responses more = [] := by
    apply List.filter_eq_nil_iff.mpr
    exact fun delivery member chosen => aside delivery member (of_decide_eq_true chosen)
  have parts : responses (first ++ more) = responses first ++ responses more := List.filter_append ..
  rw [parts,none_,List.append_nil]

theorem repliedOnce_reaches (live : s.Live) (wellFormed : WellFormed pack.msg) (fresh : pack.msg.msgId ≠ 0)
    (run : RoomRun library s turn pack out) : RepliedOnce pack out ↔ Reaches s turn pack := by
  cases run with
  | @user lobby msg more n kind speaks served replies small reports aside =>
    have numbered : msg.msgId ≠ 0 := by rw [replies.msgId]; exact fresh
    have living : { s with lobby := lobby }.Live := ⟨served,live.sessions,live.packs⟩
    have sent := deliveries_user living numbered ⟨replies.business,replies.nonempty,small⟩ pack.senderId
    rw [repliedOnce_iff replies (by rw [responses_aside aside,sent,responses_reply replies])]
    have stays : pack.msg.subType ≠ RoomReqType.leaveRoom ∧ pack.msg.subType ≠ RoomReqType.listRooms := by
      rcases kind with create | join
      · rw [create]; decide
      · rw [join]; decide
    dsimp only
    refine ⟨?_,?_⟩
    · rintro ⟨present,home⟩
      exact ⟨home ▸ present,fun _ => home,stays.1,speaks,fun list => (stays.2 list).elim⟩
    · intro reaches
      have home := reaches.bound kind
      exact ⟨by rw [home]; exact reaches.present,home⟩
  | @session msg kind speaks replies text =>
    have numbered : msg.msgId ≠ 0 := by rw [replies.msgId]; exact fresh
    have others : pack.msg.subType ≠ RoomReqType.leaveRoom ∧ pack.msg.subType ≠ RoomReqType.createRoom ∧
        pack.msg.subType ≠ RoomReqType.joinRoom := by
      rw [kind]
      decide
    have unbound : ¬ (pack.msg.subType = RoomReqType.createRoom ∨ pack.msg.subType = RoomReqType.joinRoom) :=
      not_or.mpr others.2
    have size : msg.payload.length = (roomList (s.getRoomList turn.rooms)).compactText.length := library.sized _ _ text
    have deliveries : (s.replyToSession pack msg).deliveries =
        (s.sendMessageToSession pack.senderSessionId msg).deliveries := rfl
    by_cases small : msg.payload.length ≤ maxDataSize
    · have sent := deliveries_session live numbered ⟨replies.business,replies.nonempty,small⟩ pack.senderSessionId
      rw [repliedOnce_iff replies (by rw [deliveries,sent,responses_reply replies]),and_iff_left rfl]
      refine ⟨?_,Reaches.present⟩
      exact fun present => ⟨present,fun kinds => (unbound kinds).elim,others.1,speaks,fun _ => size ▸ small⟩
    · have sent := deliveries_oversized (s := s) (fun encodable => small encodable.bounded) numbered pack.senderSessionId
      refine iff_of_false ?_ (fun reaches => small (size ▸ reaches.fits kind))
      rintro ⟨delivery,only_,-⟩
      rw [deliveries,sent] at only_
      cases only_
  | idle kind =>
    refine iff_of_false ?_ (fun reaches => reaches.stays kind)
    rintro ⟨delivery,only_,-⟩
    cases only_
  | throws mute served =>
    refine iff_of_false ?_ (fun reaches => mute reaches.speaks)
    rintro ⟨delivery,only_,-⟩
    cases only_
  | crashes reads empty => exact (wellFormed.filled reads empty).elim

end Replying

-- Over whole runs: every room request is answered once and to its sender exactly
-- as long as each is handled where its reply finds the way back.
theorem room_replies_exact (library : JsonLibrary) (heap : Heap) (events : List Event) :
    Machine.Every (step library) (Upon (Answered library)) (start heap) events ↔
      Machine.Every (step library) (Upon fun s turn pack =>
        WellFormed pack.msg → pack.msg.msgId ≠ 0 → Reaches s turn pack) (start heap) events := by
  apply every_upon
  intro s turn pack live run
  refine forall_congr' fun wellFormed => forall_congr' fun fresh => ?_
  exact repliedOnce_reaches live wellFormed fresh run

def leaveMsg : DecodedMessage := ⟨7,ProtoType.data,MsgType.roomReq,RoomReqType.leaveRoom,stdString "ABCDEF"⟩

def asksToLeave : List Event := [.connect,.receive 1 leaveMsg]

-- A session asks to leave a room by a six-character code and hears nothing.
theorem leaver_hears_nothing : ¬ Machine.Every (step Json.compact) (Upon (Answered Json.compact)) (start Lobby.noInfos)
    (asksToLeave ++ [.runRoom blankTurn]) := by
  intro every
  have seen : ((Machine.run (step Json.compact) (start Lobby.noInfos) asksToLeave).bind fun reached =>
      (step Json.compact reached (.runRoom blankTurn)).bind fun _ => (reached.taken (.runRoom blankTurn)).map fun took =>
        (took.2.2,(took.1.handleRoom Json.compact took.2.1 took.2.2).deliveries)) = some (⟨0,1,0,leaveMsg⟩,[]) := by
    decide +kernel
  obtain ⟨at_,turn,pack,answered,shown⟩ := upon_seen every seen
  obtain ⟨same,silent⟩ := Prod.mk.inj shown
  dsimp only at same silent
  rw [same] at answered silent
  have wellFormed : WellFormed leaveMsg := ⟨fun create => absurd create (by decide),fun _ => by decide +kernel⟩
  obtain ⟨delivery,one,-⟩ := answered wellFormed (by decide)
  rw [silent] at one
  cases one

end GameServer.Server
