import ClusterScaling.Proofs.Client.Conversation

/-!
# Submitting a change request

A change request goes out once, in its present form, and once more in the older form only if the
cluster refused the method. `Client.Submits` lists all ways in which a submission can go, whatever
the answers are (`Client.submit_submits`), and `Client.submit_inOrder` reads off what matters: which
exchanges are made and when, what they carry, and what the last of them gives as the result.
-/

namespace ClusterScaling

open Http (Answer Method Response isSent)

namespace Client

/-! ## All submissions -/

/-- What an exchange gives whose response is read by `read`. -/
def outcome {α : Type} (read : Response → Except ClientError α) (e : Http.Exchange) :
    Answer → Except ClientError α
  | .error f => .error (.transport (f.message e))
  | .ok response => read response

theorem converse_send_ofExcept {α : Type} (read : Response → Except ClientError α)
    (e : Http.Exchange) (answers : Nat → Answer) :
    (Session.send e >>= fun response => .ofExcept (read response)).converse answers =
      ⟨[(e, answers 0)], outcome read e (answers 0)⟩ := by
  rw [Session.converse_send_bind]
  cases answers 0 with
  | error f => rfl
  | ok response => simp [Conversation.after, outcome]

section
variable (c : Client) (r : ChangeRequest) (force : Bool)

/-- The exchange for the present form of a change request. -/
def unifiedExchange : Http.Exchange := c.exchange .patch (ChangeRequest.path force) (some r.body)

/-- The exchange for a fresh snapshot. -/
def snapshotExchange : Http.Exchange := c.exchange .get clusterPath none

/-- The exchange for a broker list. -/
def listExchange (l : BrokerList) : Http.Exchange :=
  c.exchange .post (l.path force) (some l.body)

/-- The exchanges and the result of a submission. -/
inductive Submits : List (Http.Exchange × Answer) → Except ClientError ChangeResponse → Prop
  | unified {a} : (∀ response, a = .ok response → response.status ≠ .methodNotAllowed) →
      Submits [(c.unifiedExchange r force, a)] (outcome accepted (c.unifiedExchange r force) a)
  | inexpressible {refusal e} : refusal.status = .methodNotAllowed →
      r.dependsOnBrokers = false → BrokerList.ofRequest r [] = .error e →
      Submits [(c.unifiedExchange r force, .ok refusal)] (.error (.inexpressible e.message))
  | listed {refusal l a} : refusal.status = .methodNotAllowed →
      r.dependsOnBrokers = false → BrokerList.ofRequest r [] = .ok l →
      Submits [(c.unifiedExchange r force, .ok refusal), (c.listExchange force l, a)]
        (outcome accepted (c.listExchange force l) a)
  | unread {refusal a e} : refusal.status = .methodNotAllowed →
      r.dependsOnBrokers = true → outcome snapshot c.snapshotExchange a = .error e →
      Submits [(c.unifiedExchange r force, .ok refusal), (c.snapshotExchange, a)] (.error e)
  | readInexpressible {refusal response t e} : refusal.status = .methodNotAllowed →
      r.dependsOnBrokers = true → snapshot response = .ok t →
      BrokerList.ofRequest r t.brokerIds = .error e →
      Submits [(c.unifiedExchange r force, .ok refusal), (c.snapshotExchange, .ok response)]
        (.error (.inexpressible e.message))
  | readListed {refusal response t l a} : refusal.status = .methodNotAllowed →
      r.dependsOnBrokers = true → snapshot response = .ok t →
      BrokerList.ofRequest r t.brokerIds = .ok l →
      Submits [(c.unifiedExchange r force, .ok refusal), (c.snapshotExchange, .ok response),
          (c.listExchange force l, a)]
        (outcome accepted (c.listExchange force l) a)

theorem converse_sendBrokerList_error {current : List BrokerId} {e : Inexpressible}
    (h : BrokerList.ofRequest r current = .error e) (answers : Nat → Answer) :
    (c.sendBrokerList r force current).converse answers =
      ⟨[], .error (.inexpressible e.message)⟩ := by
  simp [sendBrokerList, h]

theorem converse_sendBrokerList_ok {current : List BrokerId} {l : BrokerList}
    (h : BrokerList.ofRequest r current = .ok l) (answers : Nat → Answer) :
    (c.sendBrokerList r force current).converse answers =
      ⟨[(c.listExchange force l, answers 0)],
        outcome accepted (c.listExchange force l) (answers 0)⟩ := by
  simp only [sendBrokerList, h]
  exact converse_send_ofExcept accepted (c.listExchange force l) answers

theorem submit_eq_bind :
    c.submit r force = Session.send (c.unifiedExchange r force) >>= fun response =>
      if response.status = .methodNotAllowed then c.submitBrokerList r force
      else .ofExcept (accepted response) := rfl

theorem submitBrokerList_eq_bind (hd : r.dependsOnBrokers = true) :
    c.submitBrokerList r force = Session.send c.snapshotExchange >>= fun response =>
      Session.ofExcept (snapshot response) >>= fun t => c.sendBrokerList r force t.brokerIds := by
  simp [submitBrokerList, currentBrokers, hd, query, send, Session.bind_assoc, snapshotExchange]

theorem submits_of_refused {refusal : Response} (h : refusal.status = .methodNotAllowed)
    (answers : Nat → Answer) :
    let talk := ((c.submitBrokerList r force).converse answers).after
      (c.unifiedExchange r force, .ok refusal)
    Submits c r force talk.exchanges talk.result := by
  cases hd : r.dependsOnBrokers with
  | false =>
    have hcurrent : c.submitBrokerList r force = c.sendBrokerList r force [] := by
      simp [submitBrokerList, currentBrokers, hd]
    rw [hcurrent]
    cases hl : BrokerList.ofRequest r [] with
    | error e =>
      rw [converse_sendBrokerList_error c r force hl]
      exact .inexpressible h hd hl
    | ok l =>
      rw [converse_sendBrokerList_ok c r force hl]
      exact .listed h hd hl
  | true =>
    rw [submitBrokerList_eq_bind c r force hd, Session.converse_send_bind]
    cases answers 0 with
    | error f => exact .unread h hd rfl
    | ok response =>
      cases hs : snapshot response with
      | error e =>
        simpa [hs] using Submits.unread (a := .ok response) h hd (show outcome _ _ _ = _ from hs)
      | ok t =>
        simp only [hs, Session.ofExcept_bind_ok]
        cases hl : BrokerList.ofRequest r t.brokerIds with
        | error e =>
          rw [converse_sendBrokerList_error c r force hl]
          exact .readInexpressible h hd hs hl
        | ok l =>
          rw [converse_sendBrokerList_ok c r force hl]
          exact .readListed h hd hs hl

/-- **All submissions**, whatever the answers are. -/
theorem submit_submits (answers : Nat → Answer) :
    let talk := (c.submit r force).converse answers
    Submits c r force talk.exchanges talk.result := by
  rw [submit_eq_bind, Session.converse_send_bind]
  cases answers 0 with
  | error f => exact .unified nofun
  | ok response =>
    by_cases hs : response.status = .methodNotAllowed
    · simp only [if_pos hs]
      exact submits_of_refused c r force hs _
    · simp only [if_neg hs, Session.converse_ofExcept]
      exact .unified fun _ h => by cases h; exact hs

end

/-! ## The order of the exchanges -/

def methods (x : List (Http.Exchange × Answer)) : List Method := x.map fun e => e.1.request.method

/-- The cluster answered a request in its present form with status 405. -/
def Refused (x : List (Http.Exchange × Answer)) : Prop :=
  ∃ e response, (e, .ok response) ∈ x ∧ e.request.method = .patch ∧
    response.status = .methodNotAllowed

/-- The body of a response as a JSON document. -/
def document (response : Response) : Json.Document := .read (Text.piecesOfBytes response.body)

/-- The response has status 200 and a body that shows the cluster. -/
def Shows (response : Response) (shown : Topology) : Prop :=
  response.status.code = 200 ∧ Topology.shape.decodeDocument (document response) = .ok shown

/-- A snapshot was read. -/
def Read (x : List (Http.Exchange × Answer)) (t : Topology) : Prop :=
  ∃ e response shown, (e, .ok response) ∈ x ∧ e.request.method = .get ∧ Shows response shown ∧
    t = shown.sortBrokers

/-- The brokers that a broker list starts from: those of the snapshot that was read, if one was
asked for. -/
def Current (x : List (Http.Exchange × Answer)) (current : List BrokerId) : Prop :=
  .get ∉ methods x ∧ current = [] ∨ ∃ t, Read x t ∧ current = t.brokerIds

/-- The number of replicas in a query, if the request sets it. -/
def factorQuery (r : ChangeRequest) : String :=
  match r.partitions.bind (·.replicationFactor) with
  | none => ""
  | some n => "&replicationFactor=" ++ Decimal.text n.toNat

/-- The exchange `e` of a submission with the exchanges `x` carries what it should. -/
def Carries (c : Client) (r : ChangeRequest) (force : Bool) (x : List (Http.Exchange × Answer))
    (e : Http.Exchange) : Prop :=
  e.address = c.endpoint.address ∧ e.timeout = c.timeout ∧
    match e.request.method with
    | .patch => e.request.target = c.endpoint.target (clusterPath ++ "?force=" ++ flagText force) ∧
        e.request.body = some r.body
    | .get => e.request.target = c.endpoint.target clusterPath ∧ e.request.body = none
    | .post => e.request.target = c.endpoint.target
          (clusterPath ++ "/brokers?force=" ++ flagText force ++ factorQuery r) ∧
        ∃ current l, Current x current ∧ BrokerList.ofRequest r current = .ok l ∧
          e.request.body = some l.body

/-- An exchange lets a submission go on: the present form is refused, or a snapshot is read. -/
def GoesOn (e : Http.Exchange × Answer) : Prop :=
  ∃ response, e.2 = .ok response ∧
    (e.1.request.method = .patch ∧ response.status = .methodNotAllowed ∨
      e.1.request.method = .get ∧ ∃ shown, Shows response shown)

/-- What a response with a status other than those of success comes to. -/
def rejectedAs (response : Response) : ClientError :=
  .rejected response.status (Text.lossyText (Text.piecesOfBytes response.body))

/-- The response has a status from 200 to 299. -/
def Succeeds (response : Response) : Prop :=
  200 ≤ response.status.code ∧ response.status.code < 300

/-- What the answer to a request for a change comes to. -/
inductive Answers (response : Response) : Except ClientError ChangeResponse → Prop
  | change {change} : Succeeds response →
      ChangeResponse.shape.decodeDocument (document response) = .ok change →
      Answers response (.ok change)
  | undecodable {problem} : Succeeds response →
      ChangeResponse.shape.decodeDocument (document response) = .error problem →
      Answers response (.error (.decode problem))
  | rejected : ¬ Succeeds response → Answers response (.error (rejectedAs response))

/-- The last of the exchanges `x` of a submission gives its result. -/
inductive Concludes (r : ChangeRequest) (x : List (Http.Exchange × Answer)) :
    Http.Exchange × Answer → Except ClientError ChangeResponse → Prop
  | failed {e f} : Concludes r x (e, .error f) (.error (.transport (f.message e)))
  | answered {e response result} : e.request.method ≠ .get →
      (e.request.method = .patch → response.status ≠ .methodNotAllowed) →
      Answers response result → Concludes r x (e, .ok response) result
  | unreadable {e response problem} : e.request.method = .get → response.status.code = 200 →
      Topology.shape.decodeDocument (document response) = .error problem →
      Concludes r x (e, .ok response) (.error (.decode problem))
  | unread {e response} : e.request.method = .get → response.status.code ≠ 200 →
      Concludes r x (e, .ok response) (.error (rejectedAs response))
  | inexpressible {e current problem} : GoesOn e → Current x current →
      BrokerList.ofRequest r current = .error problem →
      Concludes r x e (.error (.inexpressible problem.message))

/-- The exchanges and the result of a submission are in order. -/
structure InOrder (c : Client) (r : ChangeRequest) (force : Bool)
    (x : List (Http.Exchange × Answer)) (result : Except ClientError ChangeResponse) : Prop where
  sequence : methods x ∈ [[.patch], [.patch, .post], [.patch, .get], [.patch, .get, .post]]
  fallsBack : 1 < x.length → Refused x
  reads : .get ∈ methods x ↔ Refused x ∧ ∀ n, r.brokers ≠ some (.count n)
  posts : .post ∈ methods x ↔ Refused x ∧ r.isEmpty = false ∧
    r.partitions.bind (·.count) = none ∧ (.get ∈ methods x → ∃ t, Read x t)
  carries : ∀ e ∈ x, Carries c r force x e.1
  /-- Nothing follows a failure. -/
  goesOn : ∀ e ∈ x.dropLast, GoesOn e
  concludes : ∃ last, x.getLast? = some last ∧ Concludes r x last result
  not_methodNotAllowed : ∀ path, result ≠ .error (.methodNotAllowed path)
  rejects : ∀ e response, (e, .ok response) ∈ x → e.request.method = .post →
    response.status = .methodNotAllowed →
      result = .error
        (.rejected .methodNotAllowed (Text.lossyText (Text.piecesOfBytes response.body)))

variable {c : Client} {r : ChangeRequest} {force : Bool} {x : List (Http.Exchange × Answer)}
  {result : Except ClientError ChangeResponse} {response : Response} {t : Topology}

theorem dependsOnBrokers_iff : r.dependsOnBrokers = true ↔ ∀ n, r.brokers ≠ some (.count n) := by
  unfold ChangeRequest.dependsOnBrokers
  split <;> simp_all

theorem status_eq_ok_iff : response.status = .ok ↔ response.status.code = 200 :=
  ⟨fun h => by rw [h]; rfl, fun h => congrArg Http.Status.mk h⟩

theorem decode_eq_ok_iff {α : Type} {shape : Json.Shape α} {a : α} :
    decode shape response = .ok a ↔ shape.decodeDocument (document response) = .ok a := by
  rw [decode, ← document]
  cases shape.decodeDocument (document response) with
  | error problem => exact iff_of_false nofun nofun
  | ok b => exact ⟨fun h => congrArg _ (Except.ok.inj h), fun h => congrArg _ (Except.ok.inj h)⟩

theorem snapshot_eq_ok_iff :
    snapshot response = .ok t ↔ ∃ shown, Shows response shown ∧ t = shown.sortBrokers := by
  simp only [snapshot, Shows, ← decode_eq_ok_iff, ← status_eq_ok_iff]
  by_cases hs : response.status = .ok
  · cases hd : decode Topology.shape response <;> simp [hs, Except.map, eq_comm]
  · simp [hs]

/-- A snapshot that cannot be read ends a submission. -/
theorem concludes_of_snapshot {e : Http.Exchange} {problem : ClientError}
    (he : e.request.method = .get) (h : snapshot response = .error problem) :
    Concludes r x (e, .ok response) (.error problem) := by
  rw [snapshot, decode] at h
  split at h
  · next hs =>
    cases hd : Topology.shape.decodeDocument (.read (Text.piecesOfBytes response.body)) with
    | ok t =>
      rw [hd] at h
      cases h
    | error problem' =>
      rw [hd] at h
      cases h
      exact .unreadable he (status_eq_ok_iff.1 hs) hd
  · next hs =>
    cases h
    exact .unread he (mt status_eq_ok_iff.2 hs)

theorem answers_accepted (response : Response) : Answers response (accepted response) := by
  rw [accepted, decode]
  split
  · next hs =>
    have hsucceeds : Succeeds response := by simpa [Succeeds, Http.Status.isSuccess] using hs
    cases hd : ChangeResponse.shape.decodeDocument (.read (Text.piecesOfBytes response.body)) with
    | ok change => exact .change hsucceeds hd
    | error problem => exact .undecodable hsucceeds hd
  · next hs => exact .rejected (by simpa [Succeeds, Http.Status.isSuccess] using hs)

theorem accepted_ne_methodNotAllowed (response : Response) (path : String) :
    accepted response ≠ .error (.methodNotAllowed path) := by
  unfold accepted decode
  split
  · cases ChangeResponse.shape.decodeDocument _ <;> nofun
  · simp [rejection]

theorem snapshot_ne_methodNotAllowed (response : Response) (path : String) :
    snapshot response ≠ .error (.methodNotAllowed path) := by
  unfold snapshot decode
  split
  · cases Topology.shape.decodeDocument _ <;> nofun
  · simp [rejection]

theorem outcome_ne_methodNotAllowed {α : Type} {read : Response → Except ClientError α}
    (h : ∀ response path, read response ≠ .error (.methodNotAllowed path)) (e : Http.Exchange)
    (a : Answer) (path : String) : outcome read e a ≠ .error (.methodNotAllowed path) := by
  cases a with
  | error f => nofun
  | ok response => exact h response path

@[simp] theorem unifiedExchange_method :
    (c.unifiedExchange r force).request.method = .patch := rfl

@[simp] theorem snapshotExchange_method : c.snapshotExchange.request.method = .get := rfl

@[simp] theorem listExchange_method (l : BrokerList) :
    (c.listExchange force l).request.method = .post := rfl

theorem Submits.sequence (h : Submits c r force x result) :
    methods x ∈ [[.patch], [.patch, .post], [.patch, .get], [.patch, .get, .post]] := by
  cases h <;> simp [methods]

theorem Submits.fallsBack (h : Submits c r force x result) (hx : 1 < x.length) : Refused x := by
  cases h with
  | unified | inexpressible => simp at hx
  | listed hs | unread hs | readInexpressible hs | readListed hs =>
    exact ⟨_, _, List.mem_cons_self, rfl, hs⟩

theorem not_refused {a : Answer}
    (h : ∀ response, a = .ok response → response.status ≠ .methodNotAllowed) :
    ¬ Refused [(c.unifiedExchange r force, a)] := by
  rintro ⟨e, response, hm, -, hr⟩
  obtain ⟨-, ha⟩ := by simpa using hm
  exact h response ha.symm hr

theorem refused_cons {refusal : Response} (h : refusal.status = .methodNotAllowed) :
    Refused ((c.unifiedExchange r force, .ok refusal) :: x) :=
  ⟨_, _, List.mem_cons_self, rfl, h⟩

theorem Submits.reads (h : Submits c r force x result) :
    .get ∈ methods x ↔ Refused x ∧ ∀ n, r.brokers ≠ some (.count n) := by
  rw [← dependsOnBrokers_iff]
  cases h with
  | unified hs => simp [methods, not_refused hs]
  | inexpressible _ hd | listed _ hd => simp [methods, hd]
  | unread hs hd | readInexpressible hs hd | readListed hs hd =>
    simp [methods, hd, refused_cons hs]

theorem read_cons (hs : snapshot response = .ok t) (e : Http.Exchange × Answer) :
    Read (e :: (c.snapshotExchange, .ok response) :: x) t := by
  obtain ⟨shown, hshows, ht⟩ := snapshot_eq_ok_iff.1 hs
  exact ⟨_, response, shown, List.mem_cons_of_mem _ List.mem_cons_self, rfl, hshows, ht⟩

theorem not_read {refusal : Response} {a : Answer} {e : ClientError}
    (h : outcome snapshot c.snapshotExchange a = .error e) :
    ¬ Read [(c.unifiedExchange r force, .ok refusal), (c.snapshotExchange, a)] t := by
  rintro ⟨e, response, shown, hm, hget, hshows, ht⟩
  simp only [List.mem_cons, Prod.mk.injEq, List.not_mem_nil, or_false] at hm
  rcases hm with ⟨rfl, -⟩ | ⟨-, rfl⟩
  · cases hget
  · have hs := snapshot_eq_ok_iff.2 ⟨shown, hshows, ht⟩
    rw [outcome, hs] at h
    cases h

theorem expressible_of_ok {current : List BrokerId} {l : BrokerList}
    (h : BrokerList.ofRequest r current = .ok l) :
    r.isEmpty = false ∧ r.partitions.bind (·.count) = none :=
  ⟨(BrokerList.ofRequest_eq_ok_iff.1 h).1, (BrokerList.ofRequest_eq_ok_iff.1 h).2.1⟩

theorem not_expressible_of_error {current : List BrokerId} {e : Inexpressible}
    (h : BrokerList.ofRequest r current = .error e) :
    ¬ (r.isEmpty = false ∧ r.partitions.bind (·.count) = none) := fun ⟨hr, hp⟩ => by
  rw [BrokerList.ofRequest_eq_ok_iff.2 ⟨hr, hp, rfl⟩] at h
  cases h

theorem Submits.posts (h : Submits c r force x result) :
    .post ∈ methods x ↔ Refused x ∧ r.isEmpty = false ∧ r.partitions.bind (·.count) = none ∧
      (.get ∈ methods x → ∃ t, Read x t) := by
  cases h with
  | unified hs => simp [methods, not_refused hs]
  | inexpressible _ _ hl | readInexpressible _ _ _ hl =>
    exact ⟨by simp [methods], fun ⟨_, hr, hp, _⟩ => absurd ⟨hr, hp⟩ (not_expressible_of_error hl)⟩
  | listed hs _ hl => simp [methods, refused_cons hs, expressible_of_ok hl]
  | unread _ _ ha =>
    -- the snapshot was asked for and not read, so the right side fails as well
    refine ⟨by simp [methods], fun ⟨_, _, _, hread⟩ => ?_⟩
    obtain ⟨t, ht⟩ := hread (by simp [methods])
    exact absurd ht (not_read ha)
  | readListed hs _ ht hl =>
    exact ⟨fun _ => ⟨refused_cons hs, (expressible_of_ok hl).1, (expressible_of_ok hl).2,
      fun _ => ⟨_, read_cons ht _⟩⟩, fun _ => by simp [methods]⟩

theorem carries_unified : Carries c r force x (c.unifiedExchange r force) :=
  ⟨rfl, rfl, rfl, rfl⟩

theorem carries_snapshot : Carries c r force x c.snapshotExchange := ⟨rfl, rfl, rfl, rfl⟩

theorem carries_list {current : List BrokerId} {l : BrokerList} (hx : Current x current)
    (hl : BrokerList.ofRequest r current = .ok l) :
    Carries c r force x (c.listExchange force l) := by
  refine ⟨rfl, rfl, congrArg c.endpoint.target ?_, current, l, hx, hl, rfl⟩
  have hfactor : r.partitions.bind (·.replicationFactor) = l.replicationFactor := by
    rw [(BrokerList.ofRequest_eq_ok_iff.1 hl).2.2]
  rw [factorQuery, hfactor, BrokerList.path]
  cases l.replicationFactor <;> rfl

theorem Submits.carries (h : Submits c r force x result) : ∀ e ∈ x, Carries c r force x e.1 := by
  cases h with
  | unified | inexpressible => simpa using carries_unified
  | listed _ _ hl =>
    simpa using ⟨carries_unified, carries_list (.inl ⟨by simp [methods], rfl⟩) hl⟩
  | unread | readInexpressible => simpa using ⟨carries_unified, carries_snapshot⟩
  | readListed _ _ ht hl =>
    simpa using
      ⟨carries_unified, carries_snapshot, carries_list (.inr ⟨_, read_cons ht _, rfl⟩) hl⟩

theorem goesOn_snapshot (h : snapshot response = .ok t) :
    GoesOn (c.snapshotExchange, .ok response) := by
  obtain ⟨shown, hshows, -⟩ := snapshot_eq_ok_iff.1 h
  exact ⟨response, rfl, .inr ⟨rfl, shown, hshows⟩⟩

theorem Submits.goesOn (h : Submits c r force x result) : ∀ e ∈ x.dropLast, GoesOn e := by
  have refused : ∀ refusal : Response, refusal.status = .methodNotAllowed →
      GoesOn (c.unifiedExchange r force, .ok refusal) := fun refusal hs =>
    ⟨refusal, rfl, .inl ⟨rfl, hs⟩⟩
  cases h with
  | unified | inexpressible => simp
  | listed hs | unread hs | readInexpressible hs => simpa using refused _ hs
  | readListed hs _ ht => simpa using ⟨refused _ hs, goesOn_snapshot ht⟩

theorem concludes_outcome {e : Http.Exchange} {a : Answer} (he : e.request.method ≠ .get)
    (ha : ∀ response, a = .ok response → e.request.method = .patch →
      response.status ≠ .methodNotAllowed) :
    Concludes r x (e, a) (outcome accepted e a) := by
  cases a with
  | error f => exact .failed
  | ok response => exact .answered he (ha response rfl) (answers_accepted response)

theorem Submits.concludes (h : Submits c r force x result) :
    ∃ last, x.getLast? = some last ∧ Concludes r x last result := by
  cases h with
  | unified hs => exact ⟨_, rfl, concludes_outcome nofun fun response ha _ => hs response ha⟩
  | inexpressible hs _ hl =>
    exact ⟨_, rfl, .inexpressible ⟨_, rfl, .inl ⟨rfl, hs⟩⟩ (.inl ⟨by simp [methods], rfl⟩) hl⟩
  | listed | readListed => exact ⟨_, rfl, concludes_outcome nofun nofun⟩
  | @unread _ a e _ _ ha =>
    refine ⟨_, rfl, ?_⟩
    cases a with
    | error f =>
      obtain rfl := Except.error.inj ha
      exact .failed
    | ok response => exact concludes_of_snapshot rfl ha
  | readInexpressible _ _ ht hl =>
    exact ⟨_, rfl, .inexpressible (goesOn_snapshot ht) (.inr ⟨_, read_cons ht _, rfl⟩) hl⟩

theorem Submits.not_methodNotAllowed (h : Submits c r force x result) (path : String) :
    result ≠ .error (.methodNotAllowed path) := by
  cases h with
  | unified | listed | readListed =>
    exact outcome_ne_methodNotAllowed accepted_ne_methodNotAllowed _ _ path
  | unread _ _ ha =>
    rintro ⟨⟩
    exact outcome_ne_methodNotAllowed snapshot_ne_methodNotAllowed _ _ path ha
  | inexpressible | readInexpressible => nofun

theorem accepted_of_methodNotAllowed (hs : response.status = .methodNotAllowed) :
    accepted response =
      .error (.rejected .methodNotAllowed (Text.lossyText (Text.piecesOfBytes response.body))) := by
  simp [accepted, rejection, hs, Http.Status.methodNotAllowed, Http.Status.isSuccess]

theorem Submits.rejects (h : Submits c r force x result) {e : Http.Exchange}
    (he : (e, .ok response) ∈ x) (hpost : e.request.method = .post)
    (hs : response.status = .methodNotAllowed) :
    result =
      .error (.rejected .methodNotAllowed (Text.lossyText (Text.piecesOfBytes response.body))) := by
  rw [← accepted_of_methodNotAllowed hs]
  have hmethods : .post ∈ methods x := List.mem_map.2 ⟨_, he, hpost⟩
  cases h with
  | unified | inexpressible | unread | readInexpressible => simp [methods] at hmethods
  | listed =>
    simp only [List.mem_cons, Prod.mk.injEq, List.not_mem_nil, or_false] at he
    rcases he with ⟨rfl, -⟩ | ⟨rfl, rfl⟩
    · cases hpost
    · rfl
  | readListed =>
    simp only [List.mem_cons, Prod.mk.injEq, List.not_mem_nil, or_false] at he
    rcases he with ⟨rfl, -⟩ | ⟨rfl, -⟩ | ⟨rfl, rfl⟩
    · cases hpost
    · cases hpost
    · rfl

end Client

end ClusterScaling
