import ClusterScaling.Client.Error
import ClusterScaling.Http.Exchange

/-!
# Sessions

A `Session` is a series of exchanges with a server, each of which may depend on what came of those
before it. Like a program it only says what to send; who runs it does the sending.
-/

namespace ClusterScaling

/-- Exchanges with a server, up to a result. -/
inductive Session (α : Type) where
  | done (a : α)
  | fail (e : ClientError)
  | exchange (x : Http.Exchange) (next : Http.Answer → Session α)

namespace Session

variable {α β : Type}

/-- Goes on with the result of a session. -/
def bind : Session α → (α → Session β) → Session β
  | done a, f => f a
  | fail e, _ => .fail e
  | exchange x k, f => .exchange x fun answer => (k answer).bind f

instance : Monad Session where
  pure := .done
  bind := .bind

/-- Ends with the error, or goes on with the value. -/
def ofExcept (r : Except ClientError α) : Session α :=
  match r with
  | .ok a => .done a
  | .error e => .fail e

/-- Sends a request and reads the response. -/
def send (x : Http.Exchange) : Session Http.Response :=
  .exchange x fun answer => ofExcept (answer.mapError fun f => .transport (f.message x))

end Session

end ClusterScaling
