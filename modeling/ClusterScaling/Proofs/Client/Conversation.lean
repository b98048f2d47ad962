import ClusterScaling.Client.Dialogue

/-!
# Conversations

`Session.converse` holds a session with any answers at all: the first exchange gets the first
answer, and so on. What it brings about is what any server can bring about: the run of a session
with a scripted server is the conversation with the answers of that server (`Session.run_converse`),
of whose exchanges the server sees those that reach it (`Http.isSent`).
-/

namespace ClusterScaling

namespace Http

/-- Whether a request with the answer reached the server. -/
def isSent : Answer → Bool
  | .error .connect | .error .build => false
  | _ => true

theorem Server.isSent_of_obstacle? {s : Server} {r : Request} {f : Failure}
    (h : s.obstacle? r = some f) : isSent (.error f) = false := by
  unfold obstacle? at h
  split at h
  · cases h
    rfl
  · split at h <;> cases h
    rfl

theorem Action.isSent_of_heard {a : Action} {answer : Answer} (h : a.heard = some answer) :
    isSent answer = true := by
  cases a with
  | respond status body whole =>
    obtain rfl := Option.some.inj h
    split
    · rfl
    · split
      · rfl
      · split <;> rfl
  | close =>
    cases h
    rfl
  | hang => cases h

end Http

open Http (Answer Response Server isSent)

variable {α β : Type}

/-- What was said in a session. -/
structure Conversation (α : Type) where
  /-- The exchanges with their answers. -/
  exchanges : List (Http.Exchange × Answer)
  result : Except ClientError α

namespace Conversation

/-- The conversation with an exchange before it. -/
def after (x : Http.Exchange × Answer) (talk : Conversation α) : Conversation α :=
  { talk with exchanges := x :: talk.exchanges }

@[simp] theorem after_exchanges (x : Http.Exchange × Answer) (talk : Conversation α) :
    (talk.after x).exchanges = x :: talk.exchanges := rfl

@[simp] theorem after_result (x : Http.Exchange × Answer) (talk : Conversation α) :
    (talk.after x).result = talk.result := rfl

end Conversation

namespace Session

/-- Holds a session, whose exchanges get the answers in turn. -/
def converse : Session α → (Nat → Answer) → Conversation α
  | done a, _ => ⟨[], .ok a⟩
  | fail e, _ => ⟨[], .error e⟩
  | exchange x next, answers =>
    ((next (answers 0)).converse fun n => answers (n + 1)).after (x, answers 0)

@[simp] theorem converse_fail (e : ClientError) (answers : Nat → Answer) :
    (fail e : Session α).converse answers = ⟨[], .error e⟩ := rfl

@[simp] theorem converse_ofExcept (r : Except ClientError α) (answers : Nat → Answer) :
    (ofExcept r).converse answers = ⟨[], r⟩ := by
  cases r <;> rfl

@[simp] theorem ofExcept_bind_ok (a : α) (f : α → Session β) :
    ofExcept (.ok a) >>= f = f a := rfl

@[simp] theorem ofExcept_bind_error (e : ClientError) (f : α → Session β) :
    ofExcept (.error e) >>= f = fail e := rfl

@[simp] theorem pure_bind (a : α) (f : α → Session β) : (pure a : Session α) >>= f = f a := rfl

theorem bind_assoc {γ : Type} (p : Session α) (f : α → Session β) (g : β → Session γ) :
    p >>= f >>= g = p >>= fun a => f a >>= g := by
  change (p.bind f).bind g = p.bind fun a => (f a).bind g
  induction p with
  | done a => rfl
  | fail e => rfl
  | exchange x next ih => simp only [bind, ih]

/-- A session goes on only with a response, whatever its status. -/
theorem converse_send_bind (x : Http.Exchange) (f : Response → Session α) (answers : Nat → Answer) :
    (send x >>= f).converse answers =
      match answers 0 with
      | .ok response =>
        ((f response).converse fun n => answers (n + 1)).after (x, .ok response)
      | .error failure =>
        ⟨[(x, .error failure)], .error (.transport (failure.message x))⟩ := by
  change (exchange x fun answer => (ofExcept _).bind f).converse answers = _
  rw [converse]
  cases answers 0 <;> rfl

def prepend (answer : Answer) (answers : Nat → Answer) : Nat → Answer
  | 0 => answer
  | n + 1 => answers n

@[simp] theorem prepend_zero (answer : Answer) (answers : Nat → Answer) :
    prepend answer answers 0 = answer := rfl

@[simp] theorem prepend_succ (answer : Answer) (answers : Nat → Answer) (n : Nat) :
    prepend answer answers (n + 1) = answers n := rfl

/-- **A session with a scripted server** is a conversation, of which the server sees the requests
that reach it. -/
theorem run_converse (session : Session α) (server : Server) :
    ∃ answers, (session.run server).result = (session.converse answers).result ∧
      (session.run server).requests =
        ((session.converse answers).exchanges.filter fun x => isSent x.2).map fun x =>
          x.1.request := by
  -- the first answer is what the server does, and the rest are those to the rest of the session
  induction session generalizing server with
  | done a => exact ⟨fun _ => .error .connect, rfl, rfl⟩
  | fail e => exact ⟨fun _ => .error .connect, rfl, rfl⟩
  | exchange x next ih =>
    rw [run]
    cases ho : server.obstacle? x.request with
    | some failure =>
      obtain ⟨answers, hresult, hrequests⟩ := ih (.error failure) server
      refine ⟨prepend (.error failure) answers, hresult, ?_⟩
      simpa [converse, Server.isSent_of_obstacle? ho] using hrequests
    | none =>
      cases hh : server.next.action.heard with
      | some answer =>
        obtain ⟨answers, hresult, hrequests⟩ := ih answer server.rest
        refine ⟨prepend answer answers, hresult, ?_⟩
        simpa [converse, Dialogue.after, Http.Action.isSent_of_heard hh] using hrequests
      | none =>
        obtain ⟨answers, hresult, hrequests⟩ := ih (.error .timeout) server.rest
        refine ⟨prepend (.error .timeout) answers, hresult, ?_⟩
        simpa [converse, Dialogue.after, isSent] using hrequests

end Session

end ClusterScaling
