import GameServer.Interleaving

namespace GameServer.Handlers
open Foundation JSONTranslator RequestPayload

structure Roomy (room : GameRoom) : Prop where
  capacity : room.group.capacity = 4
  few : room.group.members.length ≤ 4

structure Objects (w : Lobby) : Prop where
  players : ∀ id player, w.getPlayer id = some player → player.object < w.nextObject
  members : ∀ roomId room, w.getRoom roomId = some room → ∀ player ∈ room.group.members, player.object < w.nextObject
  rooms : ∀ roomId room, w.getRoom roomId = some room → Roomy room

def RoomTask.Sound (w : Lobby) : RoomTask → Prop
  | .owning turn pack newRoom => pack.msg.subType = RoomReqType.createRoom ∧ pack.msg.payload ≠ [] ∧
      w.manager.nextRoomId = newRoom.info.roomId + 1 ∧
      newRoom = .create { Server.requestedRoom (readPair turn.past pack.msg.payload) pack.senderId with
        roomId := newRoom.info.roomId, roomCode := RoomUtils.genRoomCode turn.dist }
  | .housing _ _ newRoom ownerPlayer => newRoom.group.capacity = 4 ∧ newRoom.group.members = [] ∧
      ownerPlayer.object < w.nextObject
  | .entering _ _ newRoom => Roomy newRoom ∧ ∀ player ∈ newRoom.group.members, player.object < w.nextObject
  | .finding turn pack roomId => pack.msg.subType = RoomReqType.joinRoom ∧ pack.msg.payload ≠ [] ∧
      w.roomCodeToId (sought turn pack) = some roomId
  | .meeting turn pack roomId => pack.msg.subType = RoomReqType.joinRoom ∧ pack.msg.payload ≠ [] ∧
      w.roomCodeToId (sought turn pack) = some roomId ∧ ∃ room, w.getRoom roomId = some room
  | .seating _ _ _ player => player.object < w.nextObject
  | .leaving _ pack roomId => pack.msg.subType = RoomReqType.leaveRoom ∧ pack.msg.payload ≠ [] ∧
      w.roomCodeToId readLeave.first = some roomId
  | .reading _ _ _ _ rest => rest.length ≤ 4 ∧ ∀ player ∈ rest, player.object < w.nextObject
  | _ => True

structure Sound (s : State) : Prop where
  objects : Objects s.lobby
  room : s.room.Sound s.lobby

section Serving
variable {library : JsonLibrary} {turn : Turn} {pack : MsgPack} {t : Lobby × List Answer}

theorem crash_serves (reads : Server.Reads pack) (empty : pack.msg.payload = []) :
    serve library t (.room turn pack) = (t.1,t.2 ++ [⟨none,true⟩]) := by
  have crashed : Server.handleRoom library { lobby := t.1 } turn pack = Server.crash { lobby := t.1 } := by
    unfold Server.handleRoom Server.handleRoomCreateRequest Server.handleRoomJoinRequest Server.handleRoomLeaveRequest
    rw [if_pos empty,if_pos empty,if_pos empty]
    split_ifs with first second third
    · rfl
    · rfl
    · rfl
    · exact (reads.elim first fun others => others.elim second third).elim
  unfold serve
  dsimp only
  rw [crashed]
  rfl

theorem create_serves (creates : pack.msg.subType = RoomReqType.createRoom) (filled : pack.msg.payload ≠ []) : serve library t (.room turn pack) =
    let created := t.1.createRoom (Server.requestedRoom (readPair turn.past pack.msg.payload) pack.senderId) turn.dist
    (created.lobby,t.2 ++ [described pack (if created.result ≠ .ok
      then serializeCreateRoomResult library (created.outRoomCode.getD []) created.result
      else Server.describe library { lobby := created.lobby } (created.outRoomCode.getD []))]) := by
  unfold serve Server.handleRoom described
  dsimp only
  rw [if_pos creates,if_pos creates,Server.create_lobby filled]
  unfold Server.handleRoomCreateRequest
  rw [if_neg filled]
  dsimp only
  split
  · rename_i none_
    rw [none_]
    rfl
  · rename_i text some_
    rw [some_]
    rfl

theorem join_serves (joins : pack.msg.subType = RoomReqType.joinRoom) (filled : pack.msg.payload ≠ []) : serve library t (.room turn pack) =
    match t.1.roomCodeToId (sought turn pack) with
    | none => (t.1,t.2 ++ [⟨some (joinReply pack [RoomReqResult.notFound.code]),false⟩])
    | some roomId => match t.1.joinRoom roomId pack.senderId with
      | some (.ok .ok,lobby) =>
        (lobby,t.2 ++ [described pack (Server.describe library { lobby := lobby } (sought turn pack))])
      | some (.ok result,lobby) => (lobby,t.2 ++ [⟨some (joinReply pack [result.code]),false⟩])
      | _ => (t.1,t.2 ++ [⟨none,true⟩]) := by
  have other : pack.msg.subType ≠ RoomReqType.createRoom := by rw [joins]; decide
  unfold serve Server.handleRoom described sought
  dsimp only
  rw [if_neg other,if_pos joins,if_neg other,if_neg other]
  unfold Server.handleRoomJoinRequest
  rw [if_neg filled]
  dsimp only
  cases code : t.1.roomCodeToId (readJoin turn.past pack.msg.payload).first with
  | none =>
    dsimp only
    rw [Server.replyToUser_lobby]
    rfl
  | some roomId =>
    dsimp only
    cases joined : t.1.joinRoom roomId pack.senderId with
    | none => rfl
    | some out =>
      obtain ⟨answer,lobby⟩ := out
      cases answer with
      | error thrown => rfl
      | ok result =>
        cases result with
        | ok =>
          dsimp only
          cases text : Server.describe library { lobby := lobby } (readJoin turn.past pack.msg.payload).first with
          | none => rfl
          | some text =>
            dsimp only
            rw [Server.roomBroadCast_lobby,Server.replyToUser_lobby]
            rfl
        | _ =>
          dsimp only
          rw [Server.replyToUser_lobby]
          rfl

theorem leave_serves (leaves : pack.msg.subType = RoomReqType.leaveRoom) (filled : pack.msg.payload ≠ []) : serve library t (.room turn pack) =
    match t.1.roomCodeToId readLeave.first with
    | none => (t.1,t.2 ++ [⟨none,false⟩])
    | some roomId => match t.1.leaveRoom roomId pack.senderId with
      | some (.ok result,lobby) => (lobby,t.2 ++ [⟨some (leaveReply pack result),false⟩])
      | _ => (t.1,t.2 ++ [⟨none,true⟩]) := by
  have first : pack.msg.subType ≠ RoomReqType.createRoom := by rw [leaves]; decide
  have second : pack.msg.subType ≠ RoomReqType.joinRoom := by rw [leaves]; decide
  unfold serve Server.handleRoom
  dsimp only
  rw [if_neg first,if_neg second,if_pos leaves]
  unfold Server.handleRoomLeaveRequest
  rw [if_neg filled]
  cases code : t.1.roomCodeToId readLeave.first with
  | none => rfl
  | some roomId =>
    dsimp only
    cases left : t.1.leaveRoom roomId pack.senderId with
    | none => rfl
    | some out =>
      obtain ⟨answer,lobby⟩ := out
      cases answer with
      | error thrown => rfl
      | ok result =>
        dsimp only
        rw [Server.replyToUser_lobby]
        rfl

theorem list_serves (first : pack.msg.subType ≠ RoomReqType.createRoom) (second : pack.msg.subType ≠ RoomReqType.joinRoom)
    (third : pack.msg.subType ≠ RoomReqType.leaveRoom) : serve library t (.room turn pack) =
      (t.1,t.2 ++ [told (listReply pack) (serializeRoomList library (Server.getRoomList { lobby := t.1 } turn.rooms))]) := by
  unfold serve Server.handleRoom
  dsimp only
  rw [if_neg first,if_neg second,if_neg third]
  unfold Server.handleRoomListRequest
  split
  · rename_i none_
    rw [none_]
    rfl
  · rename_i text some_
    rw [some_,Server.replyToSession_lobby]
    rfl

theorem login_serves : serve library t (.login turn pack) =
    (if Server.LogsIn pack then t.1.onUserLogin (loginInfo turn pack) else t.1,t.2) := by
  unfold serve Server.handleLogin
  dsimp only
  split
  · rename_i login
    unfold Server.handleLoginRequest
    split
    · rename_i empty
      rw [if_neg fun logs : Server.LogsIn pack => logs.2 empty]
      rfl
    rename_i filled
    rw [if_pos (show Server.LogsIn pack from ⟨login,filled⟩)]
    dsimp only
    rw [Server.replyToSession_lobby]
    rfl
  · rename_i other
    rw [if_neg fun logs : Server.LogsIn pack => other logs.1]

end Serving

section Alone
variable {library : JsonLibrary} {w next : Lobby} {task after : RoomTask} {out : List Answer} {turn : Turn} {pack : MsgPack}

theorem joined_named (room : GameRoom) (heap : Heap) (player : Option GamePlayer) :
    (room.joinRoom heap player).2.1.info.roomId = room.info.roomId ∧
      (room.joinRoom heap player).2.1.info.roomCode = room.info.roomCode := by
  rw [Lobby.joinRoom_info]
  exact ⟨rfl,rfl⟩

theorem createRoom_steps (v : Lobby) (roomInfo : GameRoomInfo) (dist : Fin 6 → Fin 36) : v.createRoom roomInfo dist =
    if !v.manager.hasPlayerManager then ⟨.unknownError,none,v.numbered⟩
    else match v.getPlayer roomInfo.ownerId with
      | none => ⟨.notAuthorized,none,v.numbered⟩
      | some ownerPlayer =>
        let joined := (v.newRoom roomInfo dist).joinRoom v.heap (some ownerPlayer)
        if joined.1 ≠ .ok then ⟨joined.1,none,{ v.numbered with heap := joined.2.2 }⟩
        else ⟨.ok,some (RoomUtils.genRoomCode dist),insertRoom { v.numbered with heap := joined.2.2 } joined.2.1⟩ := by
  unfold Lobby.createRoom
  dsimp only
  split
  · rfl
  · cases owner : v.getPlayer roomInfo.ownerId with
    | none =>
      have missing : v.numbered.getPlayer roomInfo.ownerId = none := owner
      unfold Lobby.numbered at missing
      rw [missing]
      rfl
    | some ownerPlayer =>
      have found : v.numbered.getPlayer roomInfo.ownerId = some ownerPlayer := owner
      unfold Lobby.numbered at found
      rw [found]
      dsimp only
      obtain ⟨roomId,roomCode⟩ := joined_named (v.newRoom roomInfo dist) v.heap (some ownerPlayer)
      unfold insertRoom
      rw [roomId,roomCode]
      rfl

theorem owning_serves {newRoom : GameRoom} (answers : List Answer) (sound : (RoomTask.owning turn pack newRoom).Sound w)
    (stepped : roomStep library w (.owning turn pack newRoom) = some (next,after,out)) :
    after.waiting = none ∧ after.finish library (next,answers ++ out) =
      serve library ({ w with manager := { w.manager with nextRoomId := newRoom.info.roomId } },answers) (.room turn pack) := by
  obtain ⟨creates,filled,drawn,made⟩ := sound
  generalize served : ({ w with manager := { w.manager with nextRoomId := newRoom.info.roomId } } : Lobby) = v
  have numbered : v.numbered = w := by
    rw [← served]
    unfold Lobby.numbered
    dsimp only
    rw [← drawn]
  have new : v.newRoom (Server.requestedRoom (readPair turn.past pack.msg.payload) pack.senderId) turn.dist = newRoom := by
    rw [made,← served]
    rfl
  have managed : v.manager.hasPlayerManager = w.manager.hasPlayerManager := by rw [← served]
  have players : ∀ id, v.getPlayer id = w.getPlayer id := by
    intro id
    rw [← served]
    rfl
  have owner : newRoom.info.ownerId = pack.senderId := by rw [made]; rfl
  have code : newRoom.info.roomCode = RoomUtils.genRoomCode turn.dist := by rw [made]; rfl
  have heap : v.heap = w.heap := by rw [← served]
  have asked : (Server.requestedRoom (readPair turn.past pack.msg.payload) pack.senderId).ownerId = pack.senderId := rfl
  rw [create_serves creates filled,createRoom_steps,numbered,new,managed,heap,asked,players]
  unfold roomStep at stepped
  dsimp only at stepped
  rw [owner] at stepped
  split at stepped
  · rename_i unmanaged
    cases stepped
    rw [if_pos unmanaged,described,if_pos creates]
    exact ⟨rfl,rfl⟩
  · rename_i managed
    rw [if_neg managed]
    cases found : w.getPlayer pack.senderId with
    | none =>
      rw [found] at stepped
      cases stepped
      rw [described,if_pos creates]
      exact ⟨rfl,rfl⟩
    | some ownerPlayer =>
      rw [found] at stepped
      cases stepped
      refine ⟨rfl,?_⟩
      dsimp only
      unfold RoomTask.finish
      dsimp only
      rw [List.append_nil]
      split
      · rename_i failed
        rw [described,if_pos creates]
        rfl
      · dsimp only
        rw [if_neg (by decide),Option.getD_some,sought,if_pos creates]

theorem meeting_serves {roomId : RoomId} (answers : List Answer) (sound : (RoomTask.meeting turn pack roomId).Sound w)
    (stepped : roomStep library w (.meeting turn pack roomId) = some (next,after,out)) :
    after.waiting = none ∧ after.finish library (next,answers ++ out) =
      serve library (w,answers) (.room turn pack) := by
  obtain ⟨joins,filled,code,room,listed⟩ := sound
  rw [join_serves joins filled]
  dsimp only
  rw [code]
  dsimp only
  unfold Lobby.joinRoom
  rw [listed]
  dsimp only
  unfold roomStep at stepped
  dsimp only at stepped
  split at stepped
  · rename_i unmanaged
    cases stepped
    rw [if_pos unmanaged]
    exact ⟨rfl,rfl⟩
  · rename_i managed
    rw [if_neg managed]
    cases found : w.getPlayer pack.senderId with
    | none =>
      rw [found] at stepped
      cases stepped
      exact ⟨rfl,rfl⟩
    | some player =>
      rw [found] at stepped
      cases stepped
      refine ⟨rfl,?_⟩
      dsimp only
      unfold RoomTask.finish
      dsimp only
      rewrite [List.append_nil]
      cases w.withRoom roomId (.joinRoom (some player)) with
      | none => rfl
      | some out =>
        obtain ⟨answer,lobby⟩ := out
        cases answer with
        | error thrown => rfl
        | ok result => cases result <;> rfl

theorem passes_none (after : Option Request) : passes none after = none := ite_self _

theorem called_serves (answers : List Answer) (stepped : roomStep library w (.called turn pack) = some (next,after,out)) :
    after.finish library (next,answers ++ out) =
      (passes (some (.room turn pack)) after.waiting).toList.foldl (serve library) (w,answers) := by
  unfold roomStep at stepped
  dsimp only at stepped
  split at stepped
  · rename_i crashes
    cases stepped
    refine Eq.trans ?_ (crash_serves crashes.1 crashes.2).symm
    rfl
  rename_i calm
  split at stepped
  · cases stepped
    rw [List.append_nil]
    rfl
  · rename_i first
    split at stepped
    · rename_i joins
      have filled : pack.msg.payload ≠ [] := fun empty => calm ⟨.inr (.inl joins),empty⟩
      cases code : w.roomCodeToId (sought turn pack) with
      | none =>
        rw [code] at stepped
        cases stepped
        refine Eq.trans ?_ (join_serves joins filled).symm
        rw [code]
        rfl
      | some roomId =>
        rw [code] at stepped
        cases stepped
        rw [List.append_nil]
        rfl
    · rename_i second
      split at stepped
      · rename_i leaves
        have filled : pack.msg.payload ≠ [] := fun empty => calm ⟨.inr (.inr leaves),empty⟩
        cases code : w.roomCodeToId readLeave.first with
        | none =>
          rw [code] at stepped
          cases stepped
          refine Eq.trans ?_ (leave_serves leaves filled).symm
          rw [code]
          rfl
        | some roomId =>
          rw [code] at stepped
          cases stepped
          rw [List.append_nil]
          rfl
      · rename_i third
        cases stepped
        refine Eq.trans ?_ (list_serves first second third).symm
        rfl

theorem finding_serves {roomId : RoomId} (answers : List Answer) (sound : (RoomTask.finding turn pack roomId).Sound w)
    (stepped : roomStep library w (.finding turn pack roomId) = some (next,after,out)) :
    after.finish library (next,answers ++ out) =
      (passes (some (.room turn pack)) after.waiting).toList.foldl (serve library) (w,answers) := by
  obtain ⟨joins,filled,code⟩ := sound
  unfold roomStep at stepped
  dsimp only at stepped
  cases listed : w.getRoom roomId with
  | none =>
    rw [listed] at stepped
    cases stepped
    refine Eq.trans ?_ (join_serves joins filled).symm
    rw [code]
    dsimp only
    unfold Lobby.joinRoom
    rw [listed]
    rfl
  | some room =>
    rw [listed] at stepped
    cases stepped
    rw [List.append_nil]
    rfl

theorem leaving_serves {roomId : RoomId} (answers : List Answer) (sound : (RoomTask.leaving turn pack roomId).Sound w)
    (stepped : roomStep library w (.leaving turn pack roomId) = some (next,after,out)) :
    after.waiting = none ∧ after.finish library (next,answers ++ out) = serve library (w,answers) (.room turn pack) := by
  obtain ⟨leaves,filled,code⟩ := sound
  rw [leave_serves leaves filled,code]
  unfold roomStep at stepped
  dsimp only at stepped
  dsimp only
  cases left : w.leaveRoom roomId pack.senderId with
  | none =>
    rw [left] at stepped
    cases stepped
    exact ⟨rfl,rfl⟩
  | some out =>
    obtain ⟨answer,lobby⟩ := out
    rw [left] at stepped
    cases answer with
    | error thrown =>
      cases stepped
      exact ⟨rfl,rfl⟩
    | ok result =>
      cases stepped
      exact ⟨rfl,rfl⟩

theorem roomStep_finishes (answers : List Answer) (gone : task.waiting = none)
    (stepped : roomStep library w task = some (next,after,out)) :
    after.finish library (next,answers ++ out) = task.finish library (w,answers) := by
  cases task with
  | idle => cases stepped
  | housing turn pack newRoom ownerPlayer =>
    unfold roomStep at stepped
    rw [RoomTask.finish]
    dsimp only at stepped ⊢
    split at stepped
    · rename_i failed
      cases stepped
      rw [if_pos failed]
      rfl
    · rename_i joined
      cases stepped
      rw [if_neg joined,List.append_nil]
      rfl
  | entering turn pack newRoom =>
    cases stepped
    rw [List.append_nil]
    rfl
  | seating turn pack roomId player =>
    unfold roomStep at stepped
    rw [RoomTask.finish]
    dsimp only at stepped ⊢
    cases joined : w.withRoom roomId (.joinRoom (some player)) with
    | none =>
      rw [joined] at stepped
      cases stepped
      rfl
    | some out =>
      obtain ⟨answer,lobby⟩ := out
      rw [joined] at stepped
      cases answer with
      | error thrown =>
        cases stepped
        rfl
      | ok result =>
        cases result with
        | ok =>
          cases stepped
          rw [List.append_nil]
          rfl
        | _ =>
          cases stepped
          rfl
  | describing turn pack =>
    unfold roomStep at stepped
    rw [RoomTask.finish,Server.describe]
    dsimp only at stepped ⊢
    cases code : w.roomCodeToId (sought turn pack) with
    | none =>
      rw [code] at stepped
      cases stepped
      rfl
    | some roomId =>
      rw [code] at stepped
      cases stepped
      rw [List.append_nil]
      rfl
  | fetching turn pack roomId =>
    unfold roomStep at stepped
    rw [RoomTask.finish]
    dsimp only at stepped ⊢
    cases listed : w.getRoom roomId with
    | none =>
      rw [listed] at stepped
      cases stepped
      rw [replied_finish]
    | some room =>
      rw [listed] at stepped
      cases stepped
      rw [List.append_nil]
      rfl
  | reading turn pack room infos rest =>
    cases rest with
    | nil =>
      rw [RoomTask.finish,List.map_nil,List.append_nil]
      cases stepped
      rw [replied_finish]
    | cons player rest =>
      rw [RoomTask.finish]
      cases stepped
      rw [RoomTask.finish,List.append_nil,List.append_assoc]
      rfl
  | telling =>
    cases stepped
    rw [List.append_nil]
    rfl
  | _ => cases gone

-- A step of the room strand with nothing between it and the next: either the
-- request takes effect with it or the outcome stays what it was.
theorem roomStep_serves (answers : List Answer) (sound : task.Sound w)
    (stepped : roomStep library w task = some (next,after,out)) :
    after.finish library (next,answers ++ out) =
      (passes task.waiting after.waiting).toList.foldl (serve library) (task.finish library (w,answers)) := by
  cases waits : task.waiting with
  | none =>
    rw [passes_none,roomStep_finishes answers waits stepped]
    rfl
  | some request =>
    cases task with
    | called turn pack =>
      cases waits
      exact called_serves answers stepped
    | owning turn pack newRoom =>
      cases waits
      obtain ⟨passed,served⟩ := owning_serves answers sound stepped
      rw [passed]
      exact served
    | finding turn pack roomId =>
      cases waits
      exact finding_serves answers sound stepped
    | meeting turn pack roomId =>
      cases waits
      obtain ⟨passed,served⟩ := meeting_serves answers sound stepped
      rw [passed]
      exact served
    | leaving turn pack roomId =>
      cases waits
      obtain ⟨passed,served⟩ := leaving_serves answers sound stepped
      rw [passed]
      exact served
    | _ => cases waits

end Alone
end GameServer.Handlers
