import Quiczilla.Foundation.Runs
import Quiczilla.Thumbprints

/-!
# Who reaches the worker

`listener_callback` gives every new connection its own copy of the list of
allowed thumbprints; `connection_callback` compares the peer's certificate with
that copy and forwards the streams that the peer opens; and
`handle_incoming_connection` takes the first stream and dispatches on its
header.  MsQuic decides which events it raises: what is assumed of it is the
guard `msQuicRaises`.
-/

namespace Quiczilla

open Foundation

inductive QuicStatus where
  | success
  | badCertificate
  deriving DecidableEq, Repr

/-- The connection events with the data that the callback reads; a
certificate is `none` when its pointer is null. -/
inductive ConnectionEvent where
  | peerCertificateReceived (certificate : Option (List UInt8))
  | peerStreamStarted (header : UInt8)
  | other
  deriving DecidableEq, Repr

/-- A stream on its way to `accept_stream`, with the first byte that its peer
sends on it. -/
structure ConnectionContext where
  allowedPeerThumbprints : List String
  streamTx : List UInt8
  deriving DecidableEq, Repr

/-- `connection_callback`. -/
def connectionCallback
    (table : Uppercase) (context : ConnectionContext) :
    ConnectionEvent → QuicStatus × ConnectionContext
  | .peerCertificateReceived certificate =>
      if context.allowedPeerThumbprints ≠ [] then
        match certificate with
        | none => (.badCertificate, context)
        | some derSlice =>
            if context.allowedPeerThumbprints.any fun expected =>
                eqIgnoreAsciiCase (computeThumbprint table derSlice)
                  expected then
              (.success, context)
            else (.badCertificate, context)
      else (.success, context)
  | .peerStreamStarted header =>
      (.success, { context with streamTx := context.streamTx ++ [header] })
  | .other => (.success, context)

/-- One connection: its context, the certificate its peer presents, and
whether the callback let it pass with that certificate. -/
structure Connection where
  context : ConnectionContext
  certificate : Option (List UInt8)
  admitted : Bool
  deriving DecidableEq, Repr

/-- The worker while it listens.  `dispatched` records, for each stream that
reached the header dispatch, the certificate of its peer and the header. -/
structure ListeningWorker where
  allowedPeerThumbprints : List String
  connections : List Connection
  dispatched : List (Option (List UInt8) × UInt8)
  deriving DecidableEq, Repr

/-- What the state is after `MsQuicListener::start`. -/
def ListeningWorker.start (allowed : List String) : ListeningWorker where
  allowedPeerThumbprints := allowed
  connections := []
  dispatched := []

inductive ListenerLabel where
  | newConnection (certificate : Option (List UInt8))
  | certificateReceived (connection : Nat)
  | streamStarted (connection : Nat) (header : UInt8)
  | otherEvent (connection : Nat)
  | dispatchHeader (connection : Nat)
  deriving DecidableEq, Repr

/-- `listener_callback`. -/
def ListeningWorker.listenerCallback
    (worker : ListeningWorker) (certificate : Option (List UInt8)) :
    ListeningWorker :=
  { worker with
    connections :=
      worker.connections ++
        [{ context := ⟨worker.allowedPeerThumbprints, []⟩
           certificate := certificate
           admitted := false }] }

def ListeningWorker.put
    (worker : ListeningWorker) (index : Nat) (connection : Connection) :
    ListeningWorker :=
  { worker with connections := worker.connections.set index connection }

def listenerStep (table : Uppercase) (worker : ListeningWorker) :
    ListenerLabel → Option ListeningWorker
  | .newConnection certificate =>
      some (worker.listenerCallback certificate)
  | .certificateReceived index =>
      worker.connections[index]?.map fun connection =>
        worker.put index
          { connection with
            context :=
              (connectionCallback table connection.context
                (.peerCertificateReceived connection.certificate)).2
            admitted :=
              (connectionCallback table connection.context
                  (.peerCertificateReceived connection.certificate)).1 =
                .success }
  | .streamStarted index header =>
      worker.connections[index]?.map fun connection =>
        worker.put index
          { connection with
            context :=
              (connectionCallback table connection.context
                (.peerStreamStarted header)).2 }
  | .otherEvent index =>
      worker.connections[index]?.map fun connection =>
        worker.put index
          { connection with
            context :=
              (connectionCallback table connection.context .other).2 }
  | .dispatchHeader index =>
      match worker.connections[index]? with
      | some ⟨⟨allowed, header :: later⟩, certificate, admitted⟩ =>
          some
            { worker.put index
                ⟨⟨allowed, later⟩, certificate, admitted⟩ with
              dispatched := worker.dispatched ++ [(certificate, header)] }
      | _ => none

/-- MsQuic raises no peer stream before the callback returned success for the
peer's certificate. -/
def msQuicRaises (worker : ListeningWorker) : ListenerLabel → Prop
  | .streamStarted index _ =>
      ∃ connection, worker.connections[index]? = some connection ∧
        connection.admitted = true
  | _ => True

instance (worker : ListeningWorker) (label : ListenerLabel) :
    Decidable (msQuicRaises worker label) :=
  match label with
  | .streamStarted index _ =>
      decidable_of_iff
        (worker.connections[index]?.any (·.admitted) = true)
        (by rw [Option.any_eq_true]; rfl)
  | .newConnection _ => isTrue trivial
  | .certificateReceived _ => isTrue trivial
  | .otherEvent _ => isTrue trivial
  | .dispatchHeader _ => isTrue trivial

/-- The certificate is there and its thumbprint is in the list. -/
def Authorized (allowed : List String) (certificate : Option (List UInt8)) :
    Prop :=
  ∃ certDer, certificate = some certDer ∧ upperHex (sha1 certDer) ∈ allowed

theorem connectionCallback_context
    (table : Uppercase) (context : ConnectionContext)
    (certificate : Option (List UInt8)) :
    (connectionCallback table context
        (.peerCertificateReceived certificate)).2 = context := by
  cases certificate with
  | none =>
      simp only [connectionCallback]
      split_ifs <;> rfl
  | some certDer =>
      simp only [connectionCallback]
      split_ifs <;> rfl

/-- Past the certificate with success: exactly the listed certificates, as long
as the list is not empty and holds normal forms. -/
theorem connectionCallback_iff
    {table : Uppercase} {context : ConnectionContext}
    (notEmpty : context.allowedPeerThumbprints ≠ [])
    (normal :
      ∀ entry ∈ context.allowedPeerThumbprints,
        ∀ character ∈ entry.toList, character ∈ upperHexDigits)
    (certificate : Option (List UInt8)) :
    (connectionCallback table context
          (.peerCertificateReceived certificate)).1 = .success ↔
      Authorized context.allowedPeerThumbprints certificate := by
  cases certificate with
  | none =>
      simp [connectionCallback, notEmpty, Authorized]
  | some certDer =>
      rw [connectionCallback, if_pos notEmpty]
      have matches_iff :
          (context.allowedPeerThumbprints.any fun expected =>
              eqIgnoreAsciiCase (computeThumbprint table certDer)
                expected) = true ↔
            upperHex (sha1 certDer) ∈ context.allowedPeerThumbprints := by
        rw [computeThumbprint_eq, List.any_eq_true]
        constructor
        · rintro ⟨expected, member, same⟩
          have isEntry :=
            (eqIgnoreAsciiCase_iff (upperHex_digits _)
              (normal expected member)).mp same
          rw [isEntry]
          exact member
        · intro member
          refine ⟨_, member, ?_⟩
          exact
            (eqIgnoreAsciiCase_iff (upperHex_digits _)
              (upperHex_digits _)).mpr rfl
      by_cases listed :
          upperHex (sha1 certDer) ∈ context.allowedPeerThumbprints
      · rw [if_pos (matches_iff.mpr listed)]
        exact iff_of_true rfl ⟨certDer, rfl, listed⟩
      · rw [if_neg (fun isMatch => listed (matches_iff.mp isMatch))]
        refine iff_of_false (fun isSuccess => by cases isSuccess) ?_
        rintro ⟨_, isCertificate, member⟩
        cases isCertificate
        exact listed member

/-- A connection has the list; past the certificate, with a stream waiting or
already served, its peer is authorised. -/
structure Connection.Guarded
    (connection : Connection) (allowed : List String) : Prop where
  sameList : connection.context.allowedPeerThumbprints = allowed
  ofAdmitted :
    connection.admitted = true → Authorized allowed connection.certificate
  ofStream :
    connection.context.streamTx ≠ [] →
      Authorized allowed connection.certificate

structure ListeningWorker.Guarded
    (worker : ListeningWorker) (allowed : List String) : Prop where
  sameList : worker.allowedPeerThumbprints = allowed
  connections :
    ∀ connection ∈ worker.connections, connection.Guarded allowed
  dispatched :
    ∀ served ∈ worker.dispatched, Authorized allowed served.1

theorem ListeningWorker.Guarded.put
    {worker : ListeningWorker} {allowed : List String}
    (guarded : worker.Guarded allowed) {connection : Connection}
    (kept : connection.Guarded allowed) (index : Nat) :
    (worker.put index connection).Guarded allowed where
  sameList := guarded.sameList
  connections := by
    intro other member
    rcases List.mem_or_eq_of_mem_set member with old | rfl
    · exact guarded.connections other old
    · exact kept
  dispatched := guarded.dispatched

theorem listenerStep_guarded
    {table : Uppercase} {allowed : List String}
    (notEmpty : allowed ≠ [])
    (normal :
      ∀ entry ∈ allowed,
        ∀ character ∈ entry.toList, character ∈ upperHexDigits)
    {worker next : ListeningWorker} {label : ListenerLabel}
    (guarded : worker.Guarded allowed)
    (raises : msQuicRaises worker label)
    (stepped : listenerStep table worker label = some next) :
    next.Guarded allowed := by
  cases label with
  | newConnection certificate =>
      cases stepped
      refine ⟨guarded.sameList, ?_, guarded.dispatched⟩
      intro connection member
      rcases List.mem_append.mp member with old | new
      · exact guarded.connections connection old
      · rw [List.mem_singleton.mp new]
        refine ⟨guarded.sameList, ?_, ?_⟩
        · intro admitted
          cases admitted
        · intro waiting
          exact absurd rfl waiting
  | certificateReceived index =>
      obtain ⟨connection, found, rfl⟩ := Option.map_eq_some_iff.mp stepped
      have kept :=
        guarded.connections connection (List.mem_of_getElem? found)
      have sameContext :
          (connectionCallback table connection.context
              (.peerCertificateReceived connection.certificate)).2 =
            connection.context := by
        exact connectionCallback_context table _ _
      apply guarded.put
      refine ⟨?_, ?_, ?_⟩
      · rw [sameContext]
        exact kept.sameList
      · intro admitted
        have succeeded := of_decide_eq_true admitted
        rw [← kept.sameList] at notEmpty normal ⊢
        exact
          (connectionCallback_iff notEmpty normal
            connection.certificate).mp succeeded
      · rw [sameContext]
        exact kept.ofStream
  | streamStarted index header =>
      obtain ⟨connection, found, rfl⟩ := Option.map_eq_some_iff.mp stepped
      obtain ⟨raisedBy, isRaised, admitted⟩ := raises
      rw [found] at isRaised
      cases isRaised
      have kept :=
        guarded.connections connection (List.mem_of_getElem? found)
      apply guarded.put
      exact
        ⟨kept.sameList, kept.ofAdmitted, fun _ => kept.ofAdmitted admitted⟩
  | otherEvent index =>
      obtain ⟨connection, found, rfl⟩ := Option.map_eq_some_iff.mp stepped
      have kept :=
        guarded.connections connection (List.mem_of_getElem? found)
      apply guarded.put
      exact ⟨kept.sameList, kept.ofAdmitted, kept.ofStream⟩
  | dispatchHeader index =>
      rw [listenerStep] at stepped
      split at stepped
      · rename_i allowedHere header later certificate admitted found
        cases stepped
        have kept := guarded.connections _ (List.mem_of_getElem? found)
        have authorized := kept.ofStream (List.cons_ne_nil header later)
        have keptPopped :
            Connection.Guarded ⟨⟨allowedHere, later⟩, certificate, admitted⟩
              allowed :=
          ⟨kept.sameList, kept.ofAdmitted, fun _ => authorized⟩
        have keptPut := guarded.put keptPopped index
        refine ⟨keptPut.sameList, keptPut.connections, ?_⟩
        intro served member
        rcases List.mem_append.mp member with old | new
        · exact guarded.dispatched served old
        · rw [List.mem_singleton.mp new]
          exact authorized
      · cases stepped

/-- The worker listens only with a list of normal forms of what the file and
the flag name, and with none if one of these is malformed; with that list the
certificate check passes exactly the listed certificates, and in every run all
streams that reach the header dispatch come from such peers. -/
theorem authorization_fails_closed
    (table : Uppercase) (clients : ClientList) :
    ((∃ text, clients.Names text ∧
          ∀ entry, normalizeThumbprint table text ≠ .ok entry) →
        ∀ allowed, clients.allowedThumbprints table ≠ .ok allowed) ∧
      ∀ allowed, clients.allowedThumbprints table = .ok allowed →
        allowed ≠ [] ∧
        (∀ entry ∈ allowed, ∃ text, clients.Names text ∧
          normalizeThumbprint table text = .ok entry) ∧
        (∀ context certificate,
          context.allowedPeerThumbprints = allowed →
            ((connectionCallback table context
                  (.peerCertificateReceived certificate)).1 = .success ↔
              Authorized allowed certificate)) ∧
        ∀ labels worker,
          Run (listenerStep table) msQuicRaises (.start allowed) labels
              worker →
            ∀ served ∈ worker.dispatched, Authorized allowed served.1 := by
  constructor
  · rintro ⟨text, named, malformed⟩ allowed listed
    obtain ⟨entry, normalized⟩ := normalized_of_names listed named
    exact malformed entry normalized
  · intro allowed listed
    have notEmpty := allowedThumbprints_ne_nil listed
    have normal :
        ∀ entry ∈ allowed,
          ∀ character ∈ entry.toList, character ∈ upperHexDigits := by
      intro entry member
      obtain ⟨text, _, normalized⟩ :=
        (mem_allowedThumbprints listed entry).mp member
      exact normalizeThumbprint_digits normalized
    refine ⟨notEmpty, ?_, ?_, ?_⟩
    · intro entry member
      exact (mem_allowedThumbprints listed entry).mp member
    · rintro context certificate rfl
      exact connectionCallback_iff notEmpty normal certificate
    · intro labels worker run
      have guarded : worker.Guarded allowed := by
        refine
          run.preserves (·.Guarded allowed)
            (fun _ _ _ kept raises stepped =>
              listenerStep_guarded notEmpty normal kept raises stepped)
            ⟨rfl, ?_, ?_⟩
        · intro connection member
          exact absurd member List.not_mem_nil
        · intro served member
          exact absurd member List.not_mem_nil
      exact guarded.dispatched

/-- A file with a comment, a blank line and one client: the worker listens for
that client, whose stream reaches the header dispatch; a peer without a
certificate does not pass. -/
theorem authorization_one_client :
    ∃ allowed worker, allowed ≠ [] ∧
      Run (listenerStep .least) msQuicRaises (.start allowed)
        [.newConnection none, .newConnection (some [0x30, 0]),
          .certificateReceived 0, .certificateReceived 1,
          .streamStarted 1 2, .dispatchHeader 1] worker ∧
      worker.dispatched = [(some [0x30, 0], 2)] ∧
      Authorized allowed (some [0x30, 0]) ∧
      (connectionCallback .least ⟨allowed, []⟩
          (.peerCertificateReceived none)).1 ≠ .success := by
  have listed :
      ClientList.allowedThumbprints .least
          ⟨some
            ("clients",
              .ok
                ("# clients\n \n" ++
                  "f9:44:dc:d6:35:f9:80:1f:7a:c9:" ++
                  "0a:40:7f:bc:47:99:64:de:c0:24\r\n")),
            ""⟩ =
        .ok ["F944DCD635F9801F7AC90A407FBC479964DEC024"] := by
    decide +kernel
  obtain ⟨notEmpty, _, passes, dispatches⟩ :=
    (authorization_fails_closed .least _).2 _ listed
  have run :
      Run (listenerStep .least) msQuicRaises
        (.start ["F944DCD635F9801F7AC90A407FBC479964DEC024"])
        [.newConnection none, .newConnection (some [0x30, 0]),
          .certificateReceived 0, .certificateReceived 1,
          .streamStarted 1 2, .dispatchHeader 1]
        ⟨["F944DCD635F9801F7AC90A407FBC479964DEC024"],
          [⟨⟨["F944DCD635F9801F7AC90A407FBC479964DEC024"], []⟩, none, false⟩,
            ⟨⟨["F944DCD635F9801F7AC90A407FBC479964DEC024"], []⟩,
              some [0x30, 0], true⟩],
          [(some [0x30, 0], 2)]⟩ :=
    run_of_guardedReplay (by decide +kernel)
  refine ⟨_, _, notEmpty, run, rfl, ?_, ?_⟩
  · exact dispatches _ _ run _ (List.mem_singleton_self _)
  · intro passed
    obtain ⟨certDer, isCertificate, _⟩ := (passes ⟨_, []⟩ none rfl).mp passed
    cases isCertificate

end Quiczilla
