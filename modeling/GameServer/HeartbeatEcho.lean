import GameServer.RoomRequests

namespace GameServer.Server
open Foundation MTcpCodec

-- HandleDecodedMsg of the heartbeat handler: the request's id, and nothing to say.
def handleHeartbeat (s : Server) (pack : MsgPack) : Sent :=
  s.sendMessageToSession pack.senderSessionId ⟨pack.msg.msgId,ProtoType.heartBeat,0,0,[]⟩

structure HeartbeatFrame (frame : List UInt8) (msgId : MsgId) : Prop where
  valid : framing.IsFrame frame
  beat : (ProtoHeader.ofBytes frame).protoType = ProtoType.heartBeat
  named : joinId (ProtoHeader.ofBytes frame).msgIdHigh (ProtoHeader.ofBytes frame).msgIdLow = msgId

def heartbeat (msgId : MsgId) : DecodedMessage := ⟨msgId,ProtoType.heartBeat,0,0,[]⟩

-- Every message of the frame that goes to the heartbeat handler is answered, once
-- and to the session it came from, with a heartbeat of that id.
def Echoes (s : Server) (past : Nat → UInt8) (sessionId : SessionId) (frame : List UInt8) (msgId : MsgId) : Prop :=
  ∀ msg ∈ (decodeSync past frame).messages, msg.mainType = MsgType.heartbeat →
    ∃ reply, (s.handleHeartbeat (ClientSession.pack sessionId msg)).deliveries = [reply] ∧
      reply.sessionId = sessionId ∧ ∀ behind, (decodeSync behind reply.bytes).messages = [heartbeat msgId]

section Heartbeats
variable {s : Server} {pack : MsgPack} {frame : List UInt8} {msgId : MsgId}

theorem heartbeat_message (sent : HeartbeatFrame frame msgId) : frameMessage frame = heartbeat msgId := by
  simp [frameMessage,decodeFrame,sent.beat,sent.named,heartbeat]

theorem heartbeat_decoded (sent : HeartbeatFrame frame msgId) (past : Nat → UInt8) :
    decodeSync past frame = ⟨true,"",[heartbeat msgId],frame.length⟩ := by
  have valid : ∀ other ∈ [frame], framing.IsFrame other := by
    intro other member
    rw [List.mem_singleton.mp member]
    exact sent.valid
  have whole : ∀ other ∈ [frame], SelfContained other := by
    intro other member
    rw [List.mem_singleton.mp member]
    exact Or.inl sent.beat
  have long : protoHeaderSize ≤ ([frame].flatten ++ []).length := by
    simp only [List.flatten_singleton,List.append_nil]
    exact (isFrame_iff.mp sent.valid).1
  have decoded := decodeSync_frames valid whole frameSize_nil long past
  simpa [finish,protoHeaderSize,heartbeat_message sent] using decoded

theorem createHeartbeatFrame_heartbeat (msgId : MsgId) : HeartbeatFrame (createHeartbeatFrame msgId) msgId := by
  have header : ProtoHeader.ofBytes (createHeartbeatFrame msgId) =
      ⟨protoMagic,ProtoFlags.version,ProtoType.heartBeat,0,0,idHigh msgId,idLow msgId,0,0,0⟩ := by
    have read := ProtoHeader.ofBytes_toBytes
      ⟨protoMagic,ProtoFlags.version,ProtoType.heartBeat,0,0,idHigh msgId,idLow msgId,0,0,0⟩ []
    rwa [List.append_nil] at read
  have size : (createHeartbeatFrame msgId).length = protoHeaderSize := ProtoHeader.toBytes_length _
  refine ⟨isFrame_iff.mpr ⟨Nat.le_of_eq size.symm,?_,?_⟩,?_,?_⟩
  · rw [BeginsMagic,header]
  · rw [announced,header,size]
    rfl
  · rw [header]
  · rw [header]
    exact join_halves msgId

-- Nothing of heartbeat type leaves the encoder: without a payload it is refused for
-- its size, and with one for having it.
theorem heartbeat_refused {msg : EncodeMessage} (beat : msg.protoType = ProtoType.heartBeat) (id : SessionId) :
    (s.sendMessageToSession id msg).deliveries = [] ∧
      (s.sendMessageToSession id msg).msg.protoType = ProtoType.heartBeat := by
  unfold sendMessageToSession
  split
  · exact ⟨rfl,beat⟩
  · rename_i session _
    have kept : (session.sendMessage s.nextMsgId msg).msg.protoType = ProtoType.heartBeat := by
      unfold ClientSession.sendMessage
      dsimp only
      split <;> split <;> exact beat
    refine ⟨?_,kept⟩
    cases sent : (session.sendMessage s.nextMsgId msg).payload with
    | none => simp [sent]
    | some payload => exact absurd kept (ClientSession.sendMessage_frames sent).1.business

theorem heartbeat_silent (pack : MsgPack) : (s.handleHeartbeat pack).deliveries = [] :=
  (heartbeat_refused rfl pack.senderSessionId).1

theorem heartbeat_unechoed (s : Server) {sessionId : SessionId} (_ : sessionId ∈ s.sessions) (_ : msgId ≠ 0)
    (sent : HeartbeatFrame frame msgId) (past : Nat → UInt8) : ¬ s.Echoes past sessionId frame msgId := by
  intro echoes
  have heard : heartbeat msgId ∈ (decodeSync past frame).messages := by
    rw [heartbeat_decoded sent past]
    exact List.mem_singleton.mpr rfl
  obtain ⟨reply,delivered,-⟩ := echoes _ heard rfl
  rw [heartbeat_silent] at delivered
  cases delivered

end Heartbeats

def firstSession : Server := (start Lobby.noInfos).createSession

theorem first_heartbeat_unechoed : 1 ∈ firstSession.sessions ∧
    ¬ firstSession.Echoes (fun _ => 0) 1 (createHeartbeatFrame 7) 7 := by
  have live : 1 ∈ firstSession.sessions := by decide +kernel
  exact ⟨live,heartbeat_unechoed firstSession live (by decide) (createHeartbeatFrame_heartbeat 7) (fun _ => 0)⟩

theorem heartbeats_not_echoed : ¬ ∀ (s : Server) (sessionId : SessionId), sessionId ∈ s.sessions →
    ∀ msgId ≠ 0, ∀ frame, HeartbeatFrame frame msgId → ∀ past, s.Echoes past sessionId frame msgId := by
  intro echoed
  have live : 1 ∈ firstSession.sessions := by decide +kernel
  have heard : heartbeat 7 ∈ (decodeSync (fun _ => 0) (createHeartbeatFrame 7)).messages := by
    rw [heartbeat_decoded (createHeartbeatFrame_heartbeat 7)]
    exact List.mem_singleton.mpr rfl
  obtain ⟨reply,delivered,-⟩ := echoed firstSession 1 live 7 (by decide) _ (createHeartbeatFrame_heartbeat 7)
    (fun _ => 0) _ heard rfl
  have silent : (firstSession.handleHeartbeat (ClientSession.pack 1 (heartbeat 7))).deliveries = [] := by decide +kernel
  rw [silent] at delivered
  cases delivered

end GameServer.Server
