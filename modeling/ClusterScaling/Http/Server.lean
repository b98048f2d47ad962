import ClusterScaling.Http.Exchange

/-!
# Scripted servers

A server whose replies are given in advance, one for each request that reaches it.
-/

namespace ClusterScaling.Http

/-- What a server does with a request. -/
inductive Action where
  /-- Sends a response, whole or broken off in its body. -/
  | respond (status : Nat) (body : List UInt8) (whole : Bool)
  /-- Ends the connection, or sends what is no HTTP. -/
  | close
  /-- Never answers. -/
  | hang
deriving DecidableEq, Repr

namespace Action

/-- Whether a response of this status ends an exchange: it is HTTP, and announces no other. -/
def isFinal (status : Nat) : Bool := status == 101 || (200 ≤ status && status ≤ 999)

/-- What comes of an action at the other end; nothing if the server never answers. -/
def heard : Action → Option Answer
  | respond status body whole =>
    some <|
      if !isFinal status then .error .send
      else if status == 101 || (Status.mk status).isBodiless then .ok ⟨⟨status⟩, []⟩
      else if whole then .ok ⟨⟨status⟩, body⟩
      else .error .readBody
  | close => some (.error .send)
  | hang => none

end Action

/-- What a server does with a request, and what happens beside it. -/
structure Reply where
  action : Action
  /-- The time from the reply on after which the stop signal comes, if it does. -/
  signalAfter : Option Nat := none
deriving DecidableEq, Repr

namespace Reply

/-- The text as bytes. -/
def bytes (text : String) : List UInt8 := text.toUTF8.toList

/-- The reply when the script is over. -/
def exhausted : Reply := ⟨.respond 500 (bytes "script exhausted") true, none⟩

end Reply

/-- A server with the replies that it has left. -/
structure Server where
  /-- Whether connections are accepted. -/
  listening : Bool
  replies : List Reply
deriving DecidableEq, Repr

namespace Server

/-- Why a request does not even reach the server. -/
def obstacle? (s : Server) (r : Request) : Option Failure :=
  if !s.listening then some .connect
  else if r.isTooLong then some .build
  else none

/-- The next reply. -/
def next (s : Server) : Reply := s.replies.headD .exhausted

/-- The server after its next reply. -/
def rest (s : Server) : Server := { s with replies := s.replies.tail }

end Server

end ClusterScaling.Http
