namespace GameServer

-- Every id counts from 1; the value 0 is the invalid id.
abbrev UserId := UInt32
abbrev SessionId := UInt32
abbrev GroupId := UInt32
abbrev RoomId := GroupId
abbrev MsgId := UInt64

-- A std::string is its bytes; nothing makes them valid text.
abbrev StdString := List UInt8

def stdString (text : String) : StdString := text.toUTF8.toList

inductive LoginResult where
  | success | invalidCredentials | userBanned | serverFull | alreadyOnline | unknown
deriving DecidableEq, Repr

-- Login and logout share this record: a logout uses the user id, a login both ids.
structure UserLoginInfo where
  result : LoginResult
  userId : UserId
  sessionId : SessionId
  errorMsg : StdString
deriving DecidableEq, Repr

end GameServer
