import GameServer.Server

namespace GameServer.Server
open Foundation RequestPayload

def readLoginReply (payload : List UInt8) : Option (UserId × StdString × List UInt8) :=
  match payload.drop 4 with
  | [] => none
  | size :: rest =>
    if size.toNat ≤ rest.length
    then some (UInt32.ofNat (BigEndian.field payload 0 4),rest.take size.toNat,rest.drop size.toNat)
    else none

-- The id, the length of the name and the name, so that a client reads just these.
structure SpellsLogin (payload : List UInt8) (userId : UserId) (userName : StdString) : Prop where
  layout : ∃ size : UInt8, size.toNat = userName.length ∧ payload = BigEndian.toBytes 4 userId.toNat ++ size :: userName
  read : readLoginReply payload = some (userId,userName,[])

def loginReply (userId : UserId) (userName : StdString) : List UInt8 :=
  BigEndian.toBytes 4 userId.toNat ++ UInt8.ofNat userName.length :: userName

theorem spellsLogin_iff (userId : UserId) (userName : StdString) :
    SpellsLogin (loginReply userId userName) userId userName ↔ userName.length < 256 := by
  refine ⟨?_,?_⟩
  · intro spells
    obtain ⟨size,length,_⟩ := spells.layout
    rw [← length]
    exact size.toNat_lt
  · intro short
    have size : (UInt8.ofNat userName.length).toNat = userName.length := UInt8.toNat_ofNat_of_lt' short
    have id : UInt32.ofNat (BigEndian.field (loginReply userId userName) 0 4) = userId := by
      have fits : userId.toNat % 256 ^ 4 = userId.toNat := Nat.mod_eq_of_lt userId.toNat_lt
      rw [loginReply,BigEndian.field_here,fits,UInt32.ofNat_toNat]
    have behind : (loginReply userId userName).drop 4 = UInt8.ofNat userName.length :: userName :=
      List.drop_left' (BigEndian.toBytes_length 4 _)
    refine ⟨⟨_,size,rfl⟩,?_⟩
    rw [readLoginReply,behind,id]
    simp [size]

theorem validateLogin_length (userName : StdString) : (validateLogin userName).2.length = userName.length + 6 := by
  have player : (stdString "Player").length = 6 := by decide +kernel
  rw [validateLogin,List.length_append,player,Nat.add_comm]

theorem readPair_length (past : Nat → UInt8) (payload : List UInt8) :
    (readPair past payload).first.length = (MTcpCodec.byteAt past payload 0).toNat := by
  rw [readPair,copied,List.length_map,List.length_range]

-- ValidateLogin makes the name six bytes longer, and its length is written in one byte.
theorem login_reply_exact (s : Server) (turn : Turn) (pack : MsgPack) : (pack.msg.payload ≠ [] →
    ∃ msg, (s.handleLoginRequest turn pack).reply = some msg ∧
      SpellsLogin msg.payload (validateLogin (readPair turn.past pack.msg.payload).first).1
        (validateLogin (readPair turn.past pack.msg.payload).first).2) ↔
      (pack.msg.payload ≠ [] → (MTcpCodec.byteAt turn.past pack.msg.payload 0).toNat ≤ 249) := by
  refine forall_congr' fun filled => ?_
  have length := validateLogin_length (readPair turn.past pack.msg.payload).first
  have spells := spellsLogin_iff (validateLogin (readPair turn.past pack.msg.payload).first).1
    (validateLogin (readPair turn.past pack.msg.payload).first).2
  rw [readPair_length] at length
  have short : (validateLogin (readPair turn.past pack.msg.payload).first).2.length < 256 ↔
      (MTcpCodec.byteAt turn.past pack.msg.payload 0).toNat ≤ 249 := by omega
  rw [← short,← spells,handleLoginRequest,if_neg filled]
  refine ⟨?_,fun spelled => ⟨_,rfl,spelled⟩⟩
  rintro ⟨msg,replied,spelled⟩
  cases replied
  exact spelled

def longLogin : MsgPack := ⟨0,1,0,⟨1,0,MsgType.loginReq,0,spelled (List.replicate 250 65) []⟩⟩

-- Its answer says that no name follows.
theorem long_name_unread : ∃ msg, ((start Lobby.noInfos).handleLoginRequest blankTurn longLogin).reply = some msg ∧
    msg.payload = loginReply 373 (stdString "Player" ++ List.replicate 250 65) ∧
    ¬ SpellsLogin msg.payload 373 (stdString "Player" ++ List.replicate 250 65) ∧
    (readLoginReply msg.payload).map (·.2.1) = some [] := by
  have request : (readPair blankTurn.past longLogin.msg.payload).first = List.replicate 250 65 := by decide +kernel
  have rsp : validateLogin (List.replicate 250 65) = (373,stdString "Player" ++ List.replicate 250 65) := by decide +kernel
  have long : ¬ (stdString "Player" ++ List.replicate 250 65).length < 256 := by decide +kernel
  refine ⟨_,rfl,?_,?_,?_⟩
  · dsimp only
    rw [request,rsp]
    rfl
  · dsimp only
    rw [request,rsp]
    exact fun spells => long ((spellsLogin_iff _ _).mp spells)
  · decide +kernel

end GameServer.Server
