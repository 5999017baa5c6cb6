import OtaJobs.CMemory

namespace OtaJobs.Transport

open OtaJobs.CMemory

/-- `SocketStatus_t` of the sockets wrapper: the values
`convertToOpensslStatus` names, and `other` for the rest. -/
inductive SocketStatus
  | success
  | invalidParameter
  | dnsFailure
  | connectFailure
  | other
  deriving DecidableEq, Repr

inductive OpensslStatus
  | success
  | invalidParameter
  | insufficientMemory
  | invalidCredentials
  | handshakeFailed
  | apiError
  | dnsFailure
  | connectFailure
  deriving DecidableEq, Repr

def convertToOpensslStatus : SocketStatus → OpensslStatus
  | .success => .success
  | .invalidParameter => .invalidParameter
  | .dnsFailure => .dnsFailure
  | .connectFailure => .connectFailure
  | .other => .invalidParameter

theorem convertToOpensslStatus_eq_success (st : SocketStatus) :
    convertToOpensslStatus st = .success ↔ st = .success := by
  cases st <;> simp [convertToOpensslStatus]

inductive Obj
  | bio
  | x509
  | evpPkey
  | sslCtx
  | ssl
  deriving DecidableEq, Repr

/-- The calls whose effect outlives the function: blocking the thread's
signals and restoring the old mask, and taking and dropping a reference to an
OpenSSL object. A constructor (`SSL_CTX_new`, `BIO_new`, `PEM_read_bio_*`,
`SSL_new`) hands its caller a reference, and a `_free` drops the caller's
reference; the object goes only when no reference is left. -/
inductive Call
  | blockSignals
  | restoreSignals
  | acquire (o : Obj)
  | release (o : Obj)
  deriving DecidableEq, Repr

/-- What the calls made so far leave behind: the signal masks saved by
`pthread_sigmask` and not yet restored, and the references the transport's own
variables hold, the latest first. The references OpenSSL keeps itself (a
certificate store its certificates, an `SSL` object its context) are not the
transport's and are not counted here. -/
structure Held where
  savedMasks : Nat
  refs : List Obj
  deriving DecidableEq, Repr

/-- The discipline the transport keeps: every mask restored was saved,
references are taken and dropped only while the signals are blocked, and only
a reference the transport holds is dropped. A call that breaks it gives
`none`. -/
def Held.call (h : Held) : Call → Option Held
  | .blockSignals => some { h with savedMasks := h.savedMasks + 1 }
  | .restoreSignals =>
      if h.savedMasks = 0 then none else some { h with savedMasks := h.savedMasks - 1 }
  | .acquire o => if h.savedMasks = 0 then none else some { h with refs := o :: h.refs }
  | .release o =>
      if h.savedMasks ≠ 0 ∧ o ∈ h.refs then some { h with refs := h.refs.erase o } else none

def Held.run (h : Held) : List Call → Option Held
  | [] => some h
  | c :: calls => (h.call c).bind fun h' => h'.run calls

@[simp] theorem Held.run_nil (h : Held) : h.run [] = some h := rfl

@[simp] theorem Held.run_cons (h : Held) (c : Call) (calls : List Call) :
    h.run (c :: calls) = (h.call c).bind fun h' => h'.run calls := rfl

theorem Held.run_append (h : Held) (calls calls' : List Call) :
    h.run (calls ++ calls') = (h.run calls).bind fun h' => h'.run calls' := by
  induction calls generalizing h with
  | nil => rfl
  | cons c calls ih => simp only [List.cons_append, run_cons, ih, Option.bind_assoc]

@[simp] theorem Held.call_acquire (h : Held) (o : Obj) (hm : 0 < h.savedMasks) :
    h.call (.acquire o) = some { h with refs := o :: h.refs } := by
  simp [Held.call, Nat.pos_iff_ne_zero.mp hm]

theorem Held.call_release (h : Held) (o : Obj) (hm : 0 < h.savedMasks) (ho : o ∈ h.refs) :
    h.call (.release o) = some { h with refs := h.refs.erase o } := by
  simp [Held.call, Nat.pos_iff_ne_zero.mp hm, ho]

/-- Calls that, made while the signals are blocked, leave everything as they
found it. -/
def Neutral (calls : List Call) : Prop :=
  ∀ h : Held, 0 < h.savedMasks → h.run calls = some h

theorem neutral_nil : Neutral [] := fun _ _ => rfl

theorem Neutral.append {calls calls' : List Call} (h₁ : Neutral calls) (h₂ : Neutral calls') :
    Neutral (calls ++ calls') := fun h hm => by
  rw [Held.run_append, h₁ h hm, Option.some_bind, h₂ h hm]

theorem erase_cons_cons_self (a b : Obj) (l : List Obj) : (a :: b :: l).erase b = a :: l := by
  by_cases hab : a = b
  · subst hab; exact List.erase_cons_head _ _
  · rw [List.erase_cons_tail (by simpa using hab), List.erase_cons_head]

structure OpensslParams where
  socketDescriptor : Int
  pSsl : Option Nat
  deriving DecidableEq, Repr

/-- The SSL session a network context holds: one `SSL` object when `pSsl` is
non-`NULL`. -/
def session : Option (Option OpensslParams) → List Obj
  | some (some params) => if params.pSsl.isSome then [.ssl] else []
  | _ => []

theorem session_eq_nil_or (ctx : Option (Option OpensslParams)) :
    session ctx = [] ∨ ∃ params ssl, ctx = some (some params) ∧ params.pSsl = some ssl := by
  match ctx with
  | some (some params) =>
      cases hp : params.pSsl with
      | none => exact .inl (by rw [session, hp]; rfl)
      | some ssl => exact .inr ⟨params, ssl, rfl, hp⟩
  | some none | none => exact .inl rfl

theorem session_of_pSsl {params : OpensslParams} {ssl : Nat} (hp : params.pSsl = some ssl) :
    session (some (some params)) = [.ssl] := by
  rw [session, hp]
  rfl

theorem pSsl_eq_none_of_session {params : OpensslParams}
    (hs : session (some (some params)) = []) : params.pSsl = none := by
  cases hp : params.pSsl
  · rfl
  · rw [session_of_pSsl hp] at hs
    cases hs

structure OpensslCredentials where
  pRootCaBuffer : Option (List UInt8)
  rootCaLength : Int
  pClientCertBuffer : Option (List UInt8)
  clientCertLength : Int
  pPrivateKeyBuffer : Option (List UInt8)
  privateKeyLength : Int

/-- What OpenSSL returns while one PEM object is loaded: whether
`BIO_new_mem_buf` and `PEM_read_bio_*` return non-`NULL` (reading from a
`NULL` BIO fails), and the status of the call that installs the object. -/
structure PemLoad where
  bioNew : Bool
  pemRead : Bool
  install : Int

def PemLoad.read (load : PemLoad) : Bool := load.bioNew && load.pemRead

/-- The calls of loading one PEM object of kind `o`: `BIO_new_mem_buf`,
`PEM_read_bio_*`, `BIO_free`, and the release of the object read. -/
def PemLoad.calls (load : PemLoad) (o : Obj) : List Call :=
  (if load.bioNew then [.acquire .bio] else []) ++ (if load.read then [.acquire o] else []) ++
    (if load.bioNew then [.release .bio] else []) ++ (if load.read then [.release o] else [])

theorem PemLoad.neutral_calls (load : PemLoad) (o : Obj) : Neutral (load.calls o) := by
  intro ⟨m, refs⟩ hm
  obtain ⟨_ | _, _ | _, install⟩ := load <;>
    simp [PemLoad.calls, PemLoad.read, Held.call_release, erase_cons_cons_self, hm]

def PemLoad.Loaded (load : PemLoad) : Prop := load.read = true ∧ load.install = 1

instance : DecidablePred PemLoad.Loaded := fun _ => inferInstanceAs (Decidable (_ ∧ _))

def setRootCa (load : PemLoad) : Int × List Call :=
  (if load.read ∧ load.install = 1 then 1 else -1, load.calls .x509)

theorem setRootCa_fst (load : PemLoad) : (setRootCa load).1 = if load.Loaded then 1 else -1 := rfl

theorem setRootCa_neutral (load : PemLoad) : Neutral (setRootCa load).2 :=
  PemLoad.neutral_calls _ _

/-- `SSL_CTX_use_certificate` is called also when no certificate was read;
OpenSSL then returns 0. -/
def setClientCertificate (load : PemLoad) : Int × List Call :=
  (if load.read then load.install else 0, load.calls .x509)

theorem setClientCertificate_status (load : PemLoad) :
    (setClientCertificate load).1 = 1 ↔ load.Loaded := by
  cases h : load.read <;> simp [setClientCertificate, PemLoad.Loaded, h]

theorem setClientCertificate_neutral (load : PemLoad) : Neutral (setClientCertificate load).2 :=
  PemLoad.neutral_calls _ _

def setPrivateKey (privateKeyLength : Int) (load : PemLoad) : CResult (Int × List Call) :=
  if privateKeyLength = 0 then .error .assertion
  else .ok (if load.read then load.install else 0, load.calls .evpPkey)

theorem setPrivateKey_eq_ok {privateKeyLength : Int} {load : PemLoad} {res : Int × List Call}
    (h : setPrivateKey privateKeyLength load = .ok res) :
    privateKeyLength ≠ 0 ∧
      res = (if load.read then load.install else 0, load.calls .evpPkey) := by
  rw [setPrivateKey] at h
  split at h
  · cases h
  · exact ⟨‹_›, (Except.ok.inj h).symm⟩

theorem setPrivateKey_eq_error {privateKeyLength : Int} {load : PemLoad} {e : Fault} :
    setPrivateKey privateKeyLength load = .error e ↔ e = .assertion ∧ privateKeyLength = 0 := by
  unfold setPrivateKey
  split <;> simp [*, eq_comm (a := Fault.assertion)]

structure CredentialLoads where
  rootCa : PemLoad
  clientCert : PemLoad
  privateKey : PemLoad

def setCredentials (creds : OpensslCredentials) (r : CredentialLoads) :
    CResult (Int × List Call) :=
  let rootCa := if creds.pRootCaBuffer.isSome then setRootCa r.rootCa else (0, [])
  let clientCert := if rootCa.1 = 1 ∧ creds.pClientCertBuffer.isSome then
    setClientCertificate r.clientCert else (rootCa.1, [])
  let privateKey := if clientCert.1 = 1 ∧ creds.pPrivateKeyBuffer.isSome then
    setPrivateKey creds.privateKeyLength r.privateKey else .ok (clientCert.1, [])
  privateKey >>= fun privateKey => pure (privateKey.1, rootCa.2 ++ clientCert.2 ++ privateKey.2)

/-- When `setCredentials` returns 1: the root CA loads, and the client
certificate and the private key load where they are given, the key with a
non-zero length. -/
def CredentialsLoaded (creds : OpensslCredentials) (r : CredentialLoads) : Prop :=
  creds.pRootCaBuffer.isSome ∧ r.rootCa.Loaded ∧
    (creds.pClientCertBuffer.isSome → r.clientCert.Loaded) ∧
    (creds.pPrivateKeyBuffer.isSome → creds.privateKeyLength ≠ 0 ∧ r.privateKey.Loaded)

/-- When `setPrivateKey`'s assertion `pem_key_buffer_len != 0` fails: the root CA
and the client certificate stages return 1 and the private key is given with
length 0. -/
def PrivateKeyAsserts (creds : OpensslCredentials) (r : CredentialLoads) : Prop :=
  creds.pRootCaBuffer.isSome ∧ r.rootCa.Loaded ∧
    (creds.pClientCertBuffer.isSome → r.clientCert.Loaded) ∧
    creds.pPrivateKeyBuffer.isSome ∧ creds.privateKeyLength = 0

private theorem neutral_ite {c : Prop} [Decidable c] {a b : Int × List Call} (ha : Neutral a.2)
    (hb : Neutral b.2) : Neutral (if c then a else b).2 := by
  split <;> assumption

private theorem rootCaStage_status (given : Bool) (load : PemLoad) :
    (if given then (setRootCa load).1 else 0) = 1 ↔ given ∧ load.Loaded := by
  cases given <;> simp [setRootCa_fst]

private theorem stage_status {s t : Int} {c : Prop} [Decidable c] :
    (if s = 1 ∧ c then t else s) = 1 ↔ s = 1 ∧ (c → t = 1) := by
  split
  next h => simp [h.1, h.2]
  next h =>
    simp only [not_and] at h
    exact ⟨fun hs => ⟨hs, fun hc => absurd hc (h hs)⟩, And.left⟩

private theorem privateKeyStage {s : Int} {given : Bool} {len : Int} {load : PemLoad}
    {pk : Int × List Call}
    (h : (if s = 1 ∧ given then setPrivateKey len load else .ok (s, [])) = .ok pk) :
    Neutral pk.2 ∧ (pk.1 = 1 ↔ s = 1 ∧ (given → len ≠ 0 ∧ load.Loaded)) := by
  split at h
  · rename_i hc
    obtain ⟨hl, rfl⟩ := setPrivateKey_eq_ok h
    refine ⟨PemLoad.neutral_calls _ _, ?_⟩
    simp only [hc.1, hc.2, hl, ne_eq, not_false_eq_true, true_and, true_implies]
    exact setClientCertificate_status load
  · rename_i hc
    cases h
    simp only [not_and] at hc
    exact ⟨neutral_nil, fun hs => ⟨hs, fun hg => absurd hg (hc hs)⟩, And.left⟩

theorem setCredentials_eq_ok {creds : OpensslCredentials} {r : CredentialLoads} {st : Int}
    {calls : List Call} (h : setCredentials creds r = .ok (st, calls)) :
    Neutral calls ∧ (st = 1 ↔ CredentialsLoaded creds r) := by
  obtain ⟨pk, hpk, hst⟩ := bind_eq_ok.mp h
  cases hst
  obtain ⟨hn, hs⟩ := privateKeyStage hpk
  refine ⟨((neutral_ite (setRootCa_neutral _) neutral_nil).append
    (neutral_ite (setClientCertificate_neutral _) neutral_nil)).append hn, ?_⟩
  simp only [hs, apply_ite Prod.fst]
  rw [stage_status, rootCaStage_status, setClientCertificate_status]
  simp only [CredentialsLoaded, and_assoc]

private theorem bind_pure_eq_error {x : CResult α} {f : α → β} {e : Fault} :
    (x >>= fun a => pure (f a)) = .error e ↔ x = .error e := by
  cases x <;> simp

private theorem ite_ok_eq_error {c : Prop} [Decidable c] {x : CResult α} {a : α} {e : Fault} :
    (if c then x else .ok a) = .error e ↔ c ∧ x = .error e := by
  split <;> simp [*]

theorem setCredentials_eq_error {creds : OpensslCredentials} {r : CredentialLoads} {e : Fault} :
    setCredentials creds r = .error e ↔ e = .assertion ∧ PrivateKeyAsserts creds r := by
  rw [setCredentials, bind_pure_eq_error, ite_ok_eq_error]
  simp only [apply_ite Prod.fst]
  rw [stage_status, rootCaStage_status, setClientCertificate_status, setPrivateKey_eq_error]
  exact ⟨fun ⟨⟨⟨⟨a, b⟩, c⟩, d⟩, e, f⟩ => ⟨e, a, b, c, d, f⟩,
    fun ⟨e, a, b, c, d, f⟩ => ⟨⟨⟨⟨a, b⟩, c⟩, d⟩, e, f⟩⟩

structure HandshakeResults where
  set1Host : Int
  setFd : Int
  sslConnect : Int
  verifyResult : Int

def x509VOk : Int := 0

/-- `tlsHandshake`; the optional configurations it applies before
`SSL_connect` only log their failures. -/
def tlsHandshake (r : HandshakeResults) : OpensslStatus :=
  if r.set1Host ≠ 1 then .apiError
  else if r.setFd ≠ 1 then .apiError
  else if r.sslConnect ≠ 1 then .handshakeFailed
  else if r.verifyResult ≠ x509VOk then .handshakeFailed
  else .success

theorem tlsHandshake_eq_success (r : HandshakeResults) :
    tlsHandshake r = .success ↔
      r.set1Host = 1 ∧ r.setFd = 1 ∧ r.sslConnect = 1 ∧ r.verifyResult = x509VOk := by
  unfold tlsHandshake
  by_cases h1 : r.set1Host = 1
  · by_cases h2 : r.setFd = 1
    · by_cases h3 : r.sslConnect = 1
      · by_cases h4 : r.verifyResult = x509VOk <;> simp [h1, h2, h3, h4]
      · simp [h1, h2, h3]
    · simp [h1, h2]
  · simp [h1]

structure ConnectResults where
  socketsConnect : SocketStatus
  socketDescriptor : Int
  sslCtxNew : Bool
  credentials : CredentialLoads
  sslNew : Option Nat
  handshake : HandshakeResults

/-- `Openssl_Connect`. The network context is `none` for a `NULL` context and
`some none` for a `NULL` `pParams`; the result holds the status, the network
context afterwards and the trace. -/
def Openssl_Connect (pNetworkContext : Option (Option OpensslParams))
    (pOpensslCredentials : Option OpensslCredentials) (r : ConnectResults) :
    CResult (OpensslStatus × Option (Option OpensslParams) × List Call) :=
  match pNetworkContext, pOpensslCredentials with
  | some (some params), some creds =>
      let params := { params with socketDescriptor := r.socketDescriptor }
      let status := convertToOpensslStatus r.socketsConnect
      if status ≠ .success then .ok (status, some (some params), [.blockSignals, .restoreSignals])
      else if ¬r.sslCtxNew then
        .ok (.apiError, some (some params), [.blockSignals, .restoreSignals])
      else do
        let cred ← setCredentials creds r.credentials
        if cred.1 ≠ 1 then
          pure (.invalidCredentials, some (some params),
            .blockSignals :: .acquire .sslCtx :: cred.2 ++ [.release .sslCtx, .restoreSignals])
        else
          match r.sslNew with
          | none =>
              pure (.apiError, some (some { params with pSsl := none }),
                .blockSignals :: .acquire .sslCtx :: cred.2 ++ [.release .sslCtx, .restoreSignals])
          | some ssl =>
              let handshake := tlsHandshake r.handshake
              if handshake = .success then
                pure (.success, some (some { params with pSsl := some ssl }),
                  .blockSignals :: .acquire .sslCtx :: cred.2 ++
                    [.acquire .ssl, .release .sslCtx, .restoreSignals])
              else
                pure (handshake, some (some { params with pSsl := none }),
                  .blockSignals :: .acquire .sslCtx :: cred.2 ++
                    [.acquire .ssl, .release .sslCtx, .release .ssl, .restoreSignals])
  | _, _ => .ok (.invalidParameter, pNetworkContext, [.blockSignals, .restoreSignals])

private theorem run_connect_trace (refs : List Obj) (calls tail : List Call) (hn : Neutral calls) :
    (Held.mk 0 refs).run (.blockSignals :: .acquire .sslCtx :: calls ++ tail) =
      (Held.mk 1 (.sslCtx :: refs)).run tail := by
  simp [Held.call, Held.run_append, hn ⟨1, _⟩ Nat.one_pos]

theorem Openssl_Connect_run {ctx ctx' : Option (Option OpensslParams)}
    {creds : Option OpensslCredentials} {r : ConnectResults} {s : OpensslStatus}
    {calls : List Call} (hc : Openssl_Connect ctx creds r = .ok (s, ctx', calls))
    (refs : List Obj) :
    (Held.mk 0 refs).run calls = some ⟨0, (if s = .success then [.ssl] else []) ++ refs⟩ ∧
      (session ctx = [] → session ctx' = if s = .success then [.ssl] else []) := by
  unfold Openssl_Connect at hc
  split at hc
  · by_cases hs : convertToOpensslStatus r.socketsConnect = .success
    · by_cases hn : r.sslCtxNew = true
      · simp only [hs, hn, ne_eq, not_true_eq_false, if_false, Bool.not_eq_true'] at hc
        obtain ⟨⟨st, credCalls⟩, hcred, hc⟩ := bind_eq_ok.mp hc
        have hneu := (setCredentials_eq_ok hcred).1
        split at hc
        · -- the credentials are rejected
          cases hc
          exact ⟨by rw [run_connect_trace _ _ _ hneu]; rfl, fun hs => hs⟩
        · split at hc
          · -- `SSL_new` fails
            cases hc
            exact ⟨by rw [run_connect_trace _ _ _ hneu]; rfl, fun _ => rfl⟩
          · split at hc
            · -- the handshake completes
              cases hc
              exact ⟨by rw [run_connect_trace _ _ _ hneu]; rfl, fun _ => rfl⟩
            · -- the handshake fails
              cases hc
              rw [if_neg ‹_›]
              exact ⟨by rw [run_connect_trace _ _ _ hneu]; rfl, fun _ => rfl⟩
      · simp only [hs, hn, ne_eq, not_true_eq_false, if_false, if_true, Except.ok.injEq,
          Prod.mk.injEq, Bool.not_eq_true, Bool.not_eq_false] at hc
        obtain ⟨rfl, rfl, rfl⟩ := hc
        exact ⟨rfl, fun hs => hs⟩
    · simp only [hs, ne_eq, not_false_eq_true, if_true, Except.ok.injEq, Prod.mk.injEq] at hc
      obtain ⟨rfl, rfl, rfl⟩ := hc
      rw [if_neg hs]
      exact ⟨rfl, fun hs => hs⟩
  · simp only [Except.ok.injEq, Prod.mk.injEq] at hc
    obtain ⟨rfl, rfl, rfl⟩ := hc
    exact ⟨rfl, fun hs => hs⟩

/-- What `Openssl_Connect` needs to establish a TLS session: valid parameters, a
TCP connection, an `SSL_CTX`, credentials that load, an `SSL` object, and a
handshake whose peer certificate verifies. -/
def ConnectSucceeds (ctx : Option (Option OpensslParams)) (creds : Option OpensslCredentials)
    (r : ConnectResults) : Prop :=
  (∃ params, ctx = some (some params)) ∧
    (∃ c, creds = some c ∧ CredentialsLoaded c r.credentials) ∧
    r.socketsConnect = .success ∧ r.sslCtxNew = true ∧ r.sslNew.isSome ∧
    r.handshake.set1Host = 1 ∧ r.handshake.setFd = 1 ∧ r.handshake.sslConnect = 1 ∧
    r.handshake.verifyResult = x509VOk

theorem Openssl_Connect_succeeds_iff {ctx ctx' : Option (Option OpensslParams)}
    {creds : Option OpensslCredentials} {r : ConnectResults} {s : OpensslStatus}
    {calls : List Call} (hc : Openssl_Connect ctx creds r = .ok (s, ctx', calls)) :
    s = .success ↔ ConnectSucceeds ctx creds r := by
  unfold Openssl_Connect at hc
  split at hc
  · rename_i params c
    by_cases hs : r.socketsConnect = .success
    · by_cases hn : r.sslCtxNew = true
      · simp only [hs, hn, convertToOpensslStatus, ne_eq, not_true_eq_false, if_false,
          Bool.not_eq_true'] at hc
        obtain ⟨⟨st, credCalls⟩, hcred, hc⟩ := bind_eq_ok.mp hc
        have hsucc : ConnectSucceeds (some (some params)) (some c) r ↔
            st = 1 ∧ r.sslNew.isSome ∧ tlsHandshake r.handshake = .success := by
          simp only [ConnectSucceeds, tlsHandshake_eq_success, hs, hn,
            ← (setCredentials_eq_ok hcred).2, Option.some.injEq, exists_eq', exists_eq_left',
            true_and]
        rw [hsucc]
        split at hc
        · -- the credentials are rejected
          rename_i hst
          cases hc
          exact iff_of_false (by decide) fun h => hst h.1
        · split at hc
          · -- `SSL_new` fails
            rename_i hssl
            cases hc
            exact iff_of_false (by decide) fun h => by simp [hssl] at h
          · split at hc
            · -- the handshake completes
              rename_i hst _ _ hssl hh
              cases hc
              exact iff_of_true rfl ⟨not_not.mp hst, by rw [hssl]; rfl, hh⟩
            · -- the handshake fails
              rename_i hh
              cases hc
              exact iff_of_false hh fun h => hh h.2.2
      · simp only [hs, hn, convertToOpensslStatus, ne_eq, not_true_eq_false, if_false, if_true,
          Except.ok.injEq, Prod.mk.injEq, Bool.not_eq_true, Bool.not_eq_false] at hc
        obtain ⟨rfl, rfl, rfl⟩ := hc
        exact iff_of_false (by decide) fun h => hn h.2.2.2.1
    · have hs' : convertToOpensslStatus r.socketsConnect ≠ .success :=
        (convertToOpensslStatus_eq_success _).not.mpr hs
      simp only [hs', ne_eq, not_false_eq_true, if_true, Except.ok.injEq, Prod.mk.injEq] at hc
      obtain ⟨rfl, rfl, rfl⟩ := hc
      exact iff_of_false hs' fun h => hs h.2.2.1
  · simp only [Except.ok.injEq, Prod.mk.injEq] at hc
    obtain ⟨rfl, rfl, rfl⟩ := hc
    rename_i hmatch
    simp only [reduceCtorEq, false_iff]
    rintro ⟨⟨params, rfl⟩, ⟨c, rfl, -⟩, -⟩
    exact hmatch params c rfl rfl

theorem connect_with_root_ca_succeeds :
    ConnectSucceeds (some (some ⟨0, none⟩)) (some ⟨some [45], 1, none, 0, none, 0⟩)
      ⟨.success, 3, true, ⟨⟨true, true, 1⟩, ⟨false, false, 0⟩, ⟨false, false, 0⟩⟩,
        some 7, ⟨1, 1, 1, 0⟩⟩ :=
  (Openssl_Connect_succeeds_iff (by rfl)).mp rfl

theorem Openssl_Connect_eq_error_iff {ctx : Option (Option OpensslParams)}
    {creds : Option OpensslCredentials} {r : ConnectResults} {e : Fault} :
    Openssl_Connect ctx creds r = .error e ↔
      e = .assertion ∧ (∃ params, ctx = some (some params)) ∧
        (∃ c, creds = some c ∧ PrivateKeyAsserts c r.credentials) ∧
        r.socketsConnect = .success ∧ r.sslCtxNew = true := by
  unfold Openssl_Connect
  split
  · rename_i params c
    by_cases hs : r.socketsConnect = .success
    · by_cases hn : r.sslCtxNew = true
      · simp only [hs, hn, convertToOpensslStatus, ne_eq, not_true_eq_false, if_false,
          Bool.not_eq_true', exists_eq', Option.some.injEq, exists_eq_left', and_true, true_and]
        cases hcred : setCredentials c r.credentials with
        | error e' =>
          obtain ⟨rfl, hpk⟩ := setCredentials_eq_error.mp hcred
          rw [error_bind, Except.error.injEq, eq_comm]
          exact (and_iff_left hpk).symm
        | ok cred =>
          have hok : ¬PrivateKeyAsserts c r.credentials := fun hpk => by
            simpa [hcred] using setCredentials_eq_error.mpr ⟨rfl, hpk⟩
          simp only [ok_bind, hok, and_false, iff_false]
          split
          · simp
          · split
            · simp
            · split <;> simp
      · refine iff_of_false ?_ fun h => hn h.2.2.2.2
        simp only [hs, hn, convertToOpensslStatus, ne_eq, not_true_eq_false, if_false,
          not_false_eq_true, if_true]
        exact nofun
    · have hs' : convertToOpensslStatus r.socketsConnect ≠ .success :=
        (convertToOpensslStatus_eq_success _).not.mpr hs
      refine iff_of_false ?_ fun h => hs h.2.2.2.1
      simp only [hs', ne_eq, not_false_eq_true, if_true]
      exact nofun
  · rename_i hmatch
    simp only [reduceCtorEq, false_iff, not_and]
    rintro - ⟨params, rfl⟩ ⟨c, rfl, -⟩
    exact absurd rfl (hmatch params c rfl)

def Openssl_Disconnect (pNetworkContext : Option (Option OpensslParams))
    (socketsDisconnect : SocketStatus) :
    OpensslStatus × Option (Option OpensslParams) × List Call :=
  match pNetworkContext with
  | some (some params) =>
      (convertToOpensslStatus socketsDisconnect, some (some { params with pSsl := none }),
        .blockSignals :: (if params.pSsl.isSome then [.release .ssl] else []) ++ [.restoreSignals])
  | _ => (convertToOpensslStatus .invalidParameter, pNetworkContext, [])

theorem Openssl_Disconnect_run (ctx : Option (Option OpensslParams)) (st : SocketStatus)
    (refs : List Obj) :
    (Held.mk 0 (session ctx ++ refs)).run (Openssl_Disconnect ctx st).2.2 = some ⟨0, refs⟩ ∧
      session (Openssl_Disconnect ctx st).2.1 = [] := by
  match ctx with
  | some (some params) =>
      cases h : params.pSsl <;> exact ⟨by simp only [Openssl_Disconnect, session, h]; rfl, rfl⟩
  | some none | none => exact ⟨rfl, rfl⟩

/-- `(int32_t) n` for a `size_t` `n` on a two's-complement target. -/
def toInt32 (n : Nat) : Int :=
  if n % 2 ^ 32 < 2 ^ 31 then (n % 2 ^ 32 : Nat) else (n % 2 ^ 32 : Nat) - 2 ^ 32

theorem toInt32_le (n : Nat) : toInt32 n ≤ n := by
  unfold toInt32
  split <;> omega

def sslErrorWantRead : Int := 2

structure RecvResults where
  sslPending : Int
  pollStatus : Int
  sslRead : Int → Int
  sslGetError : Int → Int

/-- `Openssl_Recv`. `poll` is called only for a read of at most one byte with
nothing pending (otherwise `pollStatus` keeps its initial 1); a negative poll
returns -1 and a zero poll returns 0 without reading, since `readStatus` then
keeps its initial 1. -/
def Openssl_Recv (pNetworkContext : Option (Option OpensslParams)) (bytesToRecv : Nat)
    (r : RecvResults) : Int × List Call :=
  let bytesReceived : Int :=
    match pNetworkContext with
    | some (some params) =>
        if params.pSsl.isNone then -1
        else
          let pollStatus : Int :=
            if bytesToRecv > 1 ∨ r.sslPending > 0 then 1 else r.pollStatus
          if pollStatus < 0 then -1
          else if pollStatus = 0 then 0
          else
            let readStatus := r.sslRead (toInt32 bytesToRecv)
            if readStatus > 0 then readStatus
            else if r.sslGetError readStatus = sslErrorWantRead then 0
            else -1
    | _ => -1
  (bytesReceived, [.blockSignals, .restoreSignals])

theorem Openssl_Recv_calls (ctx : Option (Option OpensslParams)) (bytesToRecv : Nat)
    (r : RecvResults) : (Openssl_Recv ctx bytesToRecv r).2 = [.blockSignals, .restoreSignals] :=
  rfl

theorem Openssl_Recv_of_session (params : OpensslParams) (ssl : Nat)
    (hp : params.pSsl = some ssl) (bytesToRecv : Nat) (r : RecvResults) :
    (Openssl_Recv (some (some params)) bytesToRecv r).1 = -1 ∨
    ((Openssl_Recv (some (some params)) bytesToRecv r).1 = 0 ∧
      ((bytesToRecv ≤ 1 ∧ r.sslPending ≤ 0 ∧ r.pollStatus = 0) ∨
        r.sslRead (toInt32 bytesToRecv) ≤ 0 ∧
          r.sslGetError (r.sslRead (toInt32 bytesToRecv)) = sslErrorWantRead)) ∨
    ((Openssl_Recv (some (some params)) bytesToRecv r).1 = r.sslRead (toInt32 bytesToRecv) ∧
      0 < r.sslRead (toInt32 bytesToRecv)) := by
  simp only [Openssl_Recv, hp, Option.isNone_some, Bool.false_eq_true, ↓reduceIte]
  by_cases hA : bytesToRecv > 1 ∨ r.sslPending > 0
  · have h1 : ¬((1 : Int) < 0) := by decide
    simp only [hA, h1, one_ne_zero, ↓reduceIte]
    split
    next hr => exact .inr (.inr ⟨rfl, hr⟩)
    split
    next hw => exact .inr (.inl ⟨rfl, .inr ⟨by omega, hw⟩⟩)
    next => exact .inl rfl
  · simp only [hA, ↓reduceIte]
    split
    next => exact .inl rfl
    split
    next hzero => exact .inr (.inl ⟨rfl, .inl ⟨by omega, by omega, hzero⟩⟩)
    split
    next hr => exact .inr (.inr ⟨rfl, hr⟩)
    split
    next hw => exact .inr (.inl ⟨rfl, .inr ⟨by omega, hw⟩⟩)
    next => exact .inl rfl

theorem Openssl_Recv_of_no_session {ctx : Option (Option OpensslParams)} (hs : session ctx = [])
    (bytesToRecv : Nat) (r : RecvResults) : (Openssl_Recv ctx bytesToRecv r).1 = -1 := by
  match ctx with
  | some (some params) =>
      simp only [Openssl_Recv, pSsl_eq_none_of_session hs, Option.isNone_none, ↓reduceIte]
  | some none | none => rfl

/-- What the MQTT library may rely on from a receive of `bytesToRecv` bytes that
returned `res`: -1 for an error, 0 for a read to retry, else the number of bytes
received. -/
structure RecvOutcome (ctx : Option (Option OpensslParams)) (bytesToRecv : Nat)
    (r : RecvResults) (res : Int) : Prop where
  bounded : -1 ≤ res ∧ res ≤ bytesToRecv
  no_session : session ctx = [] → res = -1
  retry : res = 0 →
    (bytesToRecv ≤ 1 ∧ r.sslPending ≤ 0 ∧ r.pollStatus = 0) ∨
      r.sslRead (toInt32 bytesToRecv) ≤ 0 ∧
        r.sslGetError (r.sslRead (toInt32 bytesToRecv)) = sslErrorWantRead

theorem Openssl_Recv_contract (ctx : Option (Option OpensslParams)) (bytesToRecv : Nat)
    (r : RecvResults) (hread : ∀ num, 0 < r.sslRead num → r.sslRead num ≤ num) :
    RecvOutcome ctx bytesToRecv r (Openssl_Recv ctx bytesToRecv r).1 := by
  have hle := toInt32_le bytesToRecv
  rcases session_eq_nil_or ctx with hs | ⟨params, ssl, rfl, hp⟩
  · rw [Openssl_Recv_of_no_session hs]
    exact ⟨⟨le_rfl, by omega⟩, fun _ => rfl, fun h => absurd h (by decide)⟩
  · have hs : session (some (some params)) ≠ [] := by
      rw [session_of_pSsl hp]
      exact List.cons_ne_nil _ _
    rcases Openssl_Recv_of_session params ssl hp bytesToRecv r with
      h | ⟨h, hretry⟩ | ⟨h, hpos⟩ <;> rw [h]
    · exact ⟨⟨le_rfl, by omega⟩, fun h => absurd h hs, fun h => absurd h (by decide)⟩
    · exact ⟨⟨by omega, by omega⟩, fun h => absurd h hs, fun _ => hretry⟩
    · have := hread _ hpos
      exact ⟨⟨by omega, by omega⟩, fun h => absurd h hs, fun _ => by omega⟩

theorem recv_partial_read_contract :
    RecvOutcome (some (some ⟨3, some 7⟩)) 4 ⟨0, 1, fun num => min num 2, fun _ => 0⟩
      (Openssl_Recv (some (some ⟨3, some 7⟩)) 4
        ⟨0, 1, fun num => min num 2, fun _ => 0⟩).1 :=
  Openssl_Recv_contract _ 4 ⟨0, 1, fun num => min num 2, fun _ => 0⟩ fun _ _ => min_le_left _ _

structure SendResults where
  pollStatus : Int
  sslWrite : Int → Int

def Openssl_Send (pNetworkContext : Option (Option OpensslParams)) (bytesToSend : Nat)
    (r : SendResults) : Int × List Call :=
  let bytesSent : Int :=
    match pNetworkContext with
    | some (some params) =>
        if params.pSsl.isSome then
          if r.pollStatus > 0 then
            let bytesSent := r.sslWrite (toInt32 bytesToSend)
            if bytesSent = 0 then -1 else bytesSent
          else if r.pollStatus < 0 then -1
          else 0
        else -1
    | _ => -1
  (bytesSent, [.blockSignals, .restoreSignals])

theorem Openssl_Send_calls (ctx : Option (Option OpensslParams)) (bytesToSend : Nat)
    (r : SendResults) : (Openssl_Send ctx bytesToSend r).2 = [.blockSignals, .restoreSignals] :=
  rfl

theorem Openssl_Send_of_no_session {ctx : Option (Option OpensslParams)} (hs : session ctx = [])
    (bytesToSend : Nat) (r : SendResults) : (Openssl_Send ctx bytesToSend r).1 = -1 := by
  match ctx with
  | some (some params) =>
      simp only [Openssl_Send, pSsl_eq_none_of_session hs, Option.isSome_none,
        Bool.false_eq_true, ↓reduceIte]
  | some none | none => rfl

/-- What the MQTT library may rely on from a send of `bytesToSend` bytes that
returned `res`: at most `bytesToSend` bytes are reported sent, and 0 (retry)
exactly when the socket was not ready on a live session. -/
structure SendOutcome (ctx : Option (Option OpensslParams)) (bytesToSend : Nat)
    (r : SendResults) (res : Int) : Prop where
  bounded : res ≤ bytesToSend
  no_session : session ctx = [] → res = -1
  retry_iff : res = 0 ↔ session ctx = [.ssl] ∧ r.pollStatus = 0

theorem Openssl_Send_contract (ctx : Option (Option OpensslParams)) (bytesToSend : Nat)
    (r : SendResults) (hwrite : ∀ num, 0 < r.sslWrite num → r.sslWrite num ≤ num) :
    SendOutcome ctx bytesToSend r (Openssl_Send ctx bytesToSend r).1 := by
  have hle := toInt32_le bytesToSend
  rcases session_eq_nil_or ctx with hs | ⟨params, ssl, rfl, hp⟩
  · rw [Openssl_Send_of_no_session hs]
    exact ⟨by omega, fun _ => rfl, iff_of_false (by decide) fun h => nomatch hs.symm.trans h.1⟩
  · have hb := hwrite (toInt32 bytesToSend)
    have hs := session_of_pSsl hp
    suffices (Openssl_Send (some (some params)) bytesToSend r).1 ≤ bytesToSend ∧
        ((Openssl_Send (some (some params)) bytesToSend r).1 = 0 ↔ r.pollStatus = 0) from
      ⟨this.1, (fun h => nomatch hs.symm.trans h),
        this.2.trans ⟨fun h => ⟨hs, h⟩, And.right⟩⟩
    simp only [Openssl_Send, hp, Option.isSome_some, ↓reduceIte]
    split <;> split <;> omega

theorem send_partial_write_contract :
    SendOutcome (some (some ⟨3, some 7⟩)) 4 ⟨1, fun num => min num 2⟩
      (Openssl_Send (some (some ⟨3, some 7⟩)) 4 ⟨1, fun num => min num 2⟩).1 :=
  Openssl_Send_contract _ 4 ⟨1, fun num => min num 2⟩ fun _ _ => min_le_left _ _

/-- The runs of the transport made by an MQTT connection over it: any sequence of
`Openssl_Connect`, `Openssl_Send`, `Openssl_Recv` and `Openssl_Disconnect` calls,
with any results from the network and OpenSSL, in which `Openssl_Connect` is
called only on a context that holds no SSL session. Indexed by the context
before, the calls made, and the context after. -/
inductive Lifecycle :
    Option (Option OpensslParams) → List Call → Option (Option OpensslParams) → Prop
  | nil (ctx : Option (Option OpensslParams)) : Lifecycle ctx [] ctx
  | connect {ctx ctx' ctx'' : Option (Option OpensslParams)} {creds : Option OpensslCredentials}
      {r : ConnectResults} {s : OpensslStatus} {calls calls' : List Call} :
      session ctx = [] → Openssl_Connect ctx creds r = .ok (s, ctx', calls) →
      Lifecycle ctx' calls' ctx'' → Lifecycle ctx (calls ++ calls') ctx''
  | disconnect {ctx ctx'' : Option (Option OpensslParams)} {calls' : List Call}
      (socketsDisconnect : SocketStatus) :
      Lifecycle (Openssl_Disconnect ctx socketsDisconnect).2.1 calls' ctx'' →
      Lifecycle ctx ((Openssl_Disconnect ctx socketsDisconnect).2.2 ++ calls') ctx''
  | send {ctx ctx'' : Option (Option OpensslParams)} {calls' : List Call} (bytesToSend : Nat)
      (r : SendResults) :
      Lifecycle ctx calls' ctx'' →
        Lifecycle ctx ((Openssl_Send ctx bytesToSend r).2 ++ calls') ctx''
  | recv {ctx ctx'' : Option (Option OpensslParams)} {calls' : List Call} (bytesToRecv : Nat)
      (r : RecvResults) :
      Lifecycle ctx calls' ctx'' →
        Lifecycle ctx ((Openssl_Recv ctx bytesToRecv r).2 ++ calls') ctx''

private theorem run_signal_bracket (refs : List Obj) :
    (Held.mk 0 refs).run [.blockSignals, .restoreSignals] = some ⟨0, refs⟩ := rfl

theorem lifecycle_holds_only_session {ctx ctx' : Option (Option OpensslParams)} {calls : List Call}
    (h : Lifecycle ctx calls ctx') :
    (Held.mk 0 (session ctx)).run calls = some ⟨0, session ctx'⟩ := by
  induction h with
  | nil => rfl
  | connect hs hc _ ih =>
    obtain ⟨hrun, hsession⟩ := Openssl_Connect_run hc []
    rw [Held.run_append, hs, hrun, List.append_nil, ← hsession hs, Option.some_bind, ih]
  | disconnect st _ ih =>
    obtain ⟨hrun, hsession⟩ := Openssl_Disconnect_run _ st []
    rw [Held.run_append, ← List.append_nil (session _), hrun, Option.some_bind, ← hsession, ih]
  | send _ _ _ ih =>
    rw [Held.run_append, Openssl_Send_calls, run_signal_bracket, Option.some_bind, ih]
  | recv _ _ _ ih =>
    rw [Held.run_append, Openssl_Recv_calls, run_signal_bracket, Option.some_bind, ih]

theorem lifecycle_connect_send_recv_disconnect :
    Lifecycle (some (some ⟨0, none⟩))
        [.blockSignals, .acquire .sslCtx, .acquire .bio, .acquire .x509, .release .bio, .release .x509,
          .acquire .ssl, .release .sslCtx, .restoreSignals, .blockSignals, .restoreSignals,
          .blockSignals, .restoreSignals, .blockSignals, .release .ssl, .restoreSignals]
        (some (some ⟨3, none⟩)) ∧
      (Held.mk 0 []).run
        [.blockSignals, .acquire .sslCtx, .acquire .bio, .acquire .x509, .release .bio, .release .x509,
          .acquire .ssl, .release .sslCtx, .restoreSignals, .blockSignals, .restoreSignals,
          .blockSignals, .restoreSignals, .blockSignals, .release .ssl, .restoreSignals] =
        some ⟨0, []⟩ :=
  have hl := @Lifecycle.connect (some (some ⟨0, none⟩)) (some (some ⟨3, some 7⟩))
    (some (some ⟨3, none⟩)) (some ⟨some [45], 1, none, 0, none, 0⟩)
    ⟨.success, 3, true, ⟨⟨true, true, 1⟩, ⟨false, false, 0⟩, ⟨false, false, 0⟩⟩,
      some 7, ⟨1, 1, 1, 0⟩⟩ .success _ _ rfl rfl
    (.send 4 ⟨1, id⟩ (.recv 4 ⟨0, 1, id, fun _ => 0⟩ (.disconnect .success (.nil _))))
  ⟨hl, lifecycle_holds_only_session hl⟩

end OtaJobs.Transport
