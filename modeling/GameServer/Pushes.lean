import Mathlib.Data.List.TakeDrop
import GameServer.Foundation.Tickets
import GameServer.EndNotice

namespace GameServer
open Foundation MTcpCodec

inductive Target where
  | user (id : UserId)
  | session (id : SessionId)

-- How far the call for the present target has come: it has not started, it knows
-- the session's id, it holds the session, or SendMessage has looked at msg_id.
inductive Stage where
  | asked
  | routed (sessionId : SessionId)
  | held (sessionId : SessionId) (session : ClientSession)
  | numbered (sessionId : SessionId) (session : ClientSession)

-- A message sent with msg_id 0: the one object as it stands, the targets left to
-- call for, and the copies its sessions have been handed.
structure Push where
  msg : EncodeMessage
  targets : List Target
  stage : Stage := .asked
  copies : List Delivery := []

-- What all the threads that push share, and every push that has been made.
structure Gateway where
  users : UserSessionMap := .empty
  sessions : UnorderedMap SessionId ClientSession := ∅
  nextMsgId : MsgId := 1
  pushes : List Push := []

namespace Gateway

def route (g : Gateway) : Target → Option SessionId
  | .user id => g.users.sendTarget id
  | .session id => some id

def written (session : ClientSession) (msg : EncodeMessage) : Option (List UInt8) :=
  let result := encodeSync msg
  if !result.success then none else session.writeEncodedPayload result.encodedMessage

-- What the thread of a push does without another coming between: one look into
-- a map, one fetch_add, or the encoding and the Send.
def advance (g : Gateway) (push : Push) : Option (MsgId × Push) :=
  match push.targets with
  | [] => none
  | target :: rest =>
    let done : Push := { push with targets := rest, stage := .asked }
    match push.stage with
    | .asked =>
      match g.route target with
      | none => some (g.nextMsgId,done)
      | some sessionId => some (g.nextMsgId,{ push with stage := .routed sessionId })
    | .routed sessionId =>
      match g.sessions.lookup sessionId with
      | none => some (g.nextMsgId,done)
      | some session => some (g.nextMsgId,{ push with stage := .held sessionId session })
    | .held sessionId session =>
      if push.msg.msgId = 0 then
        some (g.nextMsgId + 1,{ push with msg := { push.msg with msgId := g.nextMsgId }, stage := .numbered sessionId session })
      else some (g.nextMsgId,{ push with stage := .numbered sessionId session })
    | .numbered sessionId session =>
      let copy := (written session push.msg).map fun bytes => (⟨sessionId,push.msg,bytes⟩ : Delivery)
      some (g.nextMsgId,{ done with copies := push.copies ++ copy.toList })

-- Logins, logouts, connections and closes come between as they like. A message
-- that brings its own id draws none and is no push.
inductive Event where
  | bindings (event : UserSessionMap.Event)
  | opens (sessionId : SessionId)
  | closes (sessionId : SessionId)
  | push (msg : EncodeMessage) (targets : List Target)
  | goesOn (index : Nat)

def step (g : Gateway) : Event → Option Gateway
  | .bindings event => some { g with users := g.users.apply event }
  | .opens sessionId => some { g with sessions := AList.insert sessionId (ClientSession.create sessionId) g.sessions }
  | .closes sessionId => some { g with sessions := AList.erase sessionId g.sessions }
  | .push msg targets => if msg.msgId = 0 then some { g with pushes := g.pushes ++ [⟨msg,targets,.asked,[]⟩] } else none
  | .goesOn index => g.pushes[index]?.bind fun push => (g.advance push).map fun after =>
      { g with nextMsgId := after.1, pushes := g.pushes.set index after.2 }

def opened : Gateway := {}

-- Copies of one push carry one id that is not 0, copies of two pushes different ones.
structure Numbered (g : Gateway) : Prop where
  same : ∀ push ∈ g.pushes, ∀ copy ∈ push.copies, copy.msg.msgId = push.msg.msgId ∧ push.msg.msgId ≠ 0
  apart : g.pushes.Pairwise fun push other => push.msg.msgId ≠ 0 → push.msg.msgId ≠ other.msg.msgId

end Gateway

def Push.ticket (push : Push) : Option MsgId := if push.msg.msgId = 0 then none else some push.msg.msgId

namespace Gateway

def tickets (g : Gateway) : List MsgId := g.pushes.filterMap Push.ticket

-- A push past its fetch_add has its id, and so have its copies.
structure Steady (push : Push) : Prop where
  staged : ∀ sessionId session, push.stage = .numbered sessionId session → push.msg.msgId ≠ 0
  copied : ∀ copy ∈ push.copies, copy.msg.msgId = push.msg.msgId ∧ push.msg.msgId ≠ 0

structure Ledger (g : Gateway) : Prop where
  drawn : Tickets.Drawn g.nextMsgId g.tickets
  steady : ∀ push ∈ g.pushes, Steady push

section Numbering
variable {g next : Gateway} {push after : Push} {counter : MsgId}

theorem advance_cases (advanced : g.advance push = some (counter,after)) (steady : Steady push) :
    (counter = g.nextMsgId ∧ after.msg = push.msg ∧ Steady after) ∨
      (counter = g.nextMsgId + 1 ∧ push.msg.msgId = 0 ∧ after.msg.msgId = g.nextMsgId ∧ after.copies = push.copies) := by
  unfold advance at advanced
  split at advanced
  · cases advanced
  · rename_i target rest left
    dsimp only at advanced
    split at advanced
    · split at advanced <;> cases advanced <;> exact .inl ⟨rfl,rfl,nofun,steady.copied⟩
    · split at advanced <;> cases advanced <;> exact .inl ⟨rfl,rfl,nofun,steady.copied⟩
    · split at advanced
      · rename_i fresh
        cases advanced
        exact .inr ⟨rfl,fresh,rfl,rfl⟩
      · rename_i old
        cases advanced
        exact .inl ⟨rfl,rfl,fun _ _ _ => old,steady.copied⟩
    · rename_i sessionId session stands
      cases advanced
      have real := steady.staged sessionId session stands
      refine .inl ⟨rfl,rfl,nofun,?_⟩
      intro copy member
      rcases List.mem_append.mp member with old | new
      · exact steady.copied copy old
      · obtain ⟨bytes,-,rfl⟩ := Option.map_eq_some_iff.mp (Option.mem_toList.mp new)
        exact ⟨rfl,real⟩

theorem pushes_split {index : Nat} (stands : g.pushes[index]? = some push) : ∃ before behind,
    g.pushes = before ++ push :: behind ∧ ∀ other, g.pushes.set index other = before ++ other :: behind := by
  obtain ⟨inside,here⟩ := List.getElem?_eq_some_iff.mp stands
  refine ⟨g.pushes.take index,g.pushes.drop (index + 1),?_,?_⟩
  · rw [← here,List.cons_getElem_drop_succ,List.take_append_drop]
  · intro other
    rw [List.set_eq_take_append_cons_drop,if_pos inside]

theorem ticket_some {id : MsgId} (same : push.msg.msgId = id) (real : id ≠ 0) : push.ticket = some id := by
  rw [Push.ticket,same,if_neg real]

theorem draws_ledger {before behind : List Push} (ledger : g.Ledger) (split : g.pushes = before ++ push :: behind)
    (fresh : push.msg.msgId = 0) (drew : after.msg.msgId = g.nextMsgId) (copies : after.copies = push.copies)
    (few : g.pushes.length + 1 < 2 ^ 64) :
    ({ g with nextMsgId := g.nextMsgId + 1, pushes := before ++ after :: behind } : Gateway).Ledger := by
  have steady := ledger.steady
  have drawn := ledger.drawn
  have real := (Tickets.drawn_fresh drawn).1
  have unticketed : push.ticket = none := if_pos fresh
  rw [tickets,split,List.filterMap_append,List.filterMap_cons_none unticketed,← List.filterMap_append] at drawn
  rw [split] at steady few
  have short : ((before ++ behind).filterMap Push.ticket).length + 2 < UInt64.size := by
    have bound := List.length_filterMap_le Push.ticket (before ++ behind)
    rw [List.length_append] at bound few
    rw [List.length_cons] at few
    rw [UInt64.size]
    omega
  refine ⟨?_,?_⟩
  · refine Tickets.drawn_perm (Tickets.drawn_draw drawn short) ?_
    rw [tickets,List.filterMap_append,List.filterMap_append,List.filterMap_cons_some (ticket_some drew real)]
    exact List.perm_middle.symm
  · have silent : push.copies = [] := by
      rw [List.eq_nil_iff_forall_not_mem]
      intro copy member
      exact ((steady push (by simp)).copied copy member).2 fresh
    intro other member
    rcases List.mem_append.mp member with old | new
    · exact steady other (List.mem_append_left _ old)
    · rcases List.mem_cons.mp new with rfl | old
      · refine ⟨fun _ _ _ => drew ▸ real,?_⟩
        rw [copies,silent]
        exact fun _ member => (List.not_mem_nil member).elim
      · exact steady other (List.mem_append_right _ (List.mem_cons_of_mem _ old))

theorem keeps_ledger {before behind : List Push} (ledger : g.Ledger) (split : g.pushes = before ++ push :: behind)
    (kept : after.msg = push.msg) (steady : Steady after) :
    ({ g with pushes := before ++ after :: behind } : Gateway).Ledger := by
  have drawn := ledger.drawn
  have others := ledger.steady
  have ticket : after.ticket = push.ticket := by rw [Push.ticket,kept,Push.ticket]
  rw [tickets,split] at drawn
  rw [split] at others
  refine ⟨?_,?_⟩
  · rw [tickets]
    simpa only [List.filterMap_append,List.filterMap_cons,ticket] using drawn
  · intro other member
    rcases List.mem_append.mp member with old | new
    · exact others other (List.mem_append_left _ old)
    · rcases List.mem_cons.mp new with rfl | old
      · exact steady
      · exact others other (List.mem_append_right _ (List.mem_cons_of_mem _ old))

theorem push_ledger {push : Push} (ledger : g.Ledger) (fresh : push.msg.msgId = 0) (steady : Steady push) :
    ({ g with pushes := g.pushes ++ [push] } : Gateway).Ledger := by
  refine ⟨?_,?_⟩
  · have unticketed : push.ticket = none := if_pos fresh
    rw [tickets,List.filterMap_append,List.filterMap_cons_none unticketed,List.filterMap_nil,List.append_nil]
    exact ledger.drawn
  · intro other member
    rcases List.mem_append.mp member with old | new
    · exact ledger.steady other old
    · rwa [List.mem_singleton.mp new]

theorem step_grows {event : Event} (stepped : g.step event = some next) : g.pushes.length ≤ next.pushes.length := by
  cases event with
  | bindings event => cases stepped; exact Nat.le_refl _
  | opens sessionId => cases stepped; exact Nat.le_refl _
  | closes sessionId => cases stepped; exact Nat.le_refl _
  | push msg targets =>
    unfold step at stepped
    dsimp only at stepped
    split at stepped
    · cases stepped
      rw [List.length_append]
      exact Nat.le_add_right _ _
    · cases stepped
  | goesOn index =>
    obtain ⟨push,-,stepped⟩ := Option.bind_eq_some_iff.mp stepped
    obtain ⟨after,-,rfl⟩ := Option.map_eq_some_iff.mp stepped
    exact Nat.le_of_eq List.length_set.symm

theorem step_ledger {event : Event} (ledger : g.Ledger) (stepped : g.step event = some next)
    (few : g.pushes.length + 1 < 2 ^ 64) : next.Ledger := by
  cases event with
  | bindings event => cases stepped; exact ⟨ledger.drawn,ledger.steady⟩
  | opens sessionId => cases stepped; exact ⟨ledger.drawn,ledger.steady⟩
  | closes sessionId => cases stepped; exact ⟨ledger.drawn,ledger.steady⟩
  | push msg targets =>
    unfold step at stepped
    dsimp only at stepped
    split at stepped
    · rename_i fresh
      cases stepped
      exact push_ledger ledger fresh ⟨nofun,fun _ member => (List.not_mem_nil member).elim⟩
    · cases stepped
  | goesOn index =>
    obtain ⟨push,stands,stepped⟩ := Option.bind_eq_some_iff.mp stepped
    obtain ⟨⟨counter,after⟩,advanced,rfl⟩ := Option.map_eq_some_iff.mp stepped
    obtain ⟨before,behind,split,replaced⟩ := pushes_split stands
    have steady : Steady push := ledger.steady push (split ▸ by simp)
    dsimp only
    rw [replaced]
    rcases advance_cases advanced steady with ⟨rfl,kept,steady⟩ | ⟨rfl,fresh,drew,copies⟩
    · exact keeps_ledger ledger split kept steady
    · exact draws_ledger ledger split fresh drew copies few

theorem opened_ledger : opened.Ledger := ⟨Tickets.drawn_none,fun _ member => (List.not_mem_nil member).elim⟩

theorem run_ledger {events : List Event} (path : Machine.run step opened events = some g)
    (few : g.pushes.length + 1 < 2 ^ 64) : g.Ledger := by
  have kept : ∀ (g : Gateway) event next, (g.pushes.length + 1 < 2 ^ 64 → g.Ledger) → step g event = some next →
      next.pushes.length + 1 < 2 ^ 64 → next.Ledger := by
    intro g event next before stepped few
    have grew := step_grows stepped
    exact step_ledger (before (by omega)) stepped (by omega)
  exact Machine.run_preserves kept (fun _ => opened_ledger) path few

theorem ledger_numbered (ledger : g.Ledger) : g.Numbered := by
  refine ⟨fun push member => (ledger.steady push member).copied,?_⟩
  have distinct := ledger.drawn.distinct
  rw [tickets,List.Nodup,List.pairwise_filterMap] at distinct
  refine distinct.imp ?_
  intro push other apart real same
  have theirs : other.msg.msgId ≠ 0 := same ▸ real
  exact apart _ (ticket_some rfl real) _ (ticket_some rfl theirs) same

end Numbering
end Gateway
end GameServer
