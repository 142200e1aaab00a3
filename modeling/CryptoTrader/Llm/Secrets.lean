import CryptoTrader.Lib.AtomicFile
import CryptoTrader.Lib.Json
import CryptoTrader.Lib.Runs

/-!
# The secret store

`EncryptedFileSecretStore` of `llm_runtime/secrets.py`: a dictionary of secrets, encrypted in one file
under the master key of another. Every call reads the files anew and may stop after any system
call of a write, because the process dies or because the call fails. After any run the store
answers what the calls whose file was replaced have made of it (`secret_store_run`).
-/

namespace CryptoTrader.Secrets

open AtomicFile KeyedTable

/-- The two files of a store. -/
inductive StoreFile where
  | masterKey
  | secrets
  deriving DecidableEq, Repr

/-- `cryptography.fernet`, with the JSON text of the values inside the token: `decrypt` is
`json.loads(Fernet(key).decrypt(token))`, where it does not raise. -/
structure Fernet (Bytes Nonce : Type) where
  /-- What `generate_key` returns. -/
  generated : Bytes → Prop
  /-- `Fernet(key)` takes the key. -/
  accepts : Bytes → Bool
  encrypt : Bytes → Nonce → Dict String String → Bytes
  decrypt : Bytes → Bytes → Option Json
  empty : Bytes

/-- The values as a JSON dictionary. -/
def asJson (values : Dict String String) : Json :=
  .dict (values.map (fun e => (e.1, .text e.2)))

variable {Bytes Nonce : Type}

/-- A generated key is a key, and under it what was encrypted is decrypted. -/
structure Fernet.Lawful (F : Fernet Bytes Nonce) : Prop where
  accepts : ∀ k, F.generated k → F.accepts k = true
  decrypt_encrypt : ∀ k nonce values, F.generated k → (values.map Prod.fst).Nodup →
    F.decrypt k (F.encrypt k nonce values) = some (asJson values)

inductive SecretError where
  | valueError (message : String)
  | secretStoreError (message : String)
  | osError
  deriving DecidableEq, Repr

/-- How a call ends. -/
inductive Outcome (α : Type) where
  | returned (a : α)
  | raised (e : SecretError)
  | killed
  deriving DecidableEq, Repr

/-- What becomes of a write: it is done, or the process dies or a system call fails after `n` calls, when
the call that writes has written `part`. -/
inductive Fault (Bytes : Type) where
  | none
  | killed (n : ℕ) (part : Bytes)
  | failed (n : ℕ) (part : Bytes)

/-- The file is replaced in spite of the fault. -/
def Fault.replaces : Fault Bytes → Bool
  | .none => true
  | .killed n _ => renamed ≤ n
  | .failed n _ => renamed ≤ n

def Fault.completes : Fault Bytes → Bool
  | .none => true
  | _ => false

/-- The Fernet package and the names of the files, which errors cite. -/
structure Store (Bytes Nonce : Type) where
  fernet : Fernet Bytes Nonce
  name : StoreFile → String

namespace Store

variable (S : Store Bytes Nonce)

abbrev State (Bytes : Type) := Disk StoreFile Bytes

/-- `_atomic_write`. -/
def atomicWrite (target : StoreFile) (content : Bytes) (fault : Fault Bytes) (d : State Bytes) :
    Outcome Unit × State Bytes :=
  match fault with
  | .none => (.returned (), interrupt target S.fernet.empty content content 6 d)
  | .killed n part => (.killed, interrupt target S.fernet.empty part content n d)
  | .failed n part => (.raised .osError, cleanUp n (interrupt target S.fernet.empty part content n d))

/-- `_assert_private`. -/
def insecure (path : StoreFile) : SecretError :=
  .secretStoreError ("insecure permissions on " ++ S.name path)

/-- What a call draws and what befalls its writes. -/
structure Env (F : Fernet Bytes Nonce) where
  key : {k : Bytes // F.generated k}
  nonce : Nonce
  keyFault : Fault Bytes := .none
  secretFault : Fault Bytes := .none

/-- The key that the file holds, which must be private. -/
def openKey (f : File Bytes) : Except SecretError Bytes :=
  if f.Private then
    if S.fernet.accepts f.content then .ok f.content
    else .error (.valueError "Fernet key must be 32 url-safe base64-encoded bytes.")
  else .error (S.insecure .masterKey)

/-- `_fernet(create=False)`. -/
def readKey (d : State Bytes) : Except SecretError Bytes :=
  match d.files .masterKey with
  | none => .error (.secretStoreError "LLM master key is not initialized")
  | some f => S.openKey f

/-- `_fernet(create=True)`. -/
def createKey (env : Env S.fernet) (d : State Bytes) : Outcome Bytes × State Bytes :=
  let opened (d' : State Bytes) : Outcome Bytes × State Bytes :=
    match S.readKey d' with
    | .ok k => (.returned k, d')
    | .error e => (.raised e, d')
  match d.files .masterKey with
  | some _ => opened d
  | none =>
    match S.atomicWrite .masterKey env.key.1 env.keyFault d with
    | (.returned (), d') => opened d'
    | (.raised e, d') => (.raised e, d')
    | (.killed, d') => (.killed, d')

/-- The check of the payload: a dictionary of texts. -/
def valuesOf : Json → Option (Dict String String)
  | .dict entries => entries.mapM (fun e => e.2.text?.map (fun v => (e.1, v)))
  | _ => none

/-- `_read_all`. An invalid key is caught with the invalid tokens, the key's other errors are not. -/
def readAll (d : State Bytes) : Except SecretError (Dict String String) :=
  match d.files .secrets with
  | none => .ok []
  | some f =>
    if f.Private then
      match S.readKey d with
      | .error (.valueError _) => .error (.secretStoreError "LLM secret store cannot be decrypted")
      | .error e => .error e
      | .ok k =>
        match S.fernet.decrypt k f.content with
        | none => .error (.secretStoreError "LLM secret store cannot be decrypted")
        | some payload =>
          match valuesOf payload with
          | none => .error (.secretStoreError "LLM secret store has an invalid format")
          | some values => .ok values
    else .error (S.insecure .secrets)

/-- Encrypt the values and replace the file. -/
def writeAll (values : Dict String String) (env : Env S.fernet) (d : State Bytes) : Outcome Unit × State Bytes :=
  match S.createKey env d with
  | (.returned k, d') => S.atomicWrite .secrets (S.fernet.encrypt k env.nonce values) env.secretFault d'
  | (.raised e, d') => (.raised e, d')
  | (.killed, d') => (.killed, d')

def set (reference value : String) (env : Env S.fernet) (d : State Bytes) : Outcome Unit × State Bytes :=
  if reference = "" ∨ value = "" then
    (.raised (.valueError "secret reference and value are required"), d)
  else
    match S.readAll d with
    | .error e => (.raised e, d)
    | .ok values => S.writeAll (values.alter reference (fun _ => value)) env d

def get (reference : String) (d : State Bytes) : Except SecretError (Option String) :=
  (S.readAll d).map (Dict.get reference)

def delete (reference : String) (env : Env S.fernet) (d : State Bytes) : Outcome Unit × State Bytes :=
  match S.readAll d with
  | .error e => (.raised e, d)
  | .ok values =>
    if reference ∈ values.map Prod.fst then
      S.writeAll (values.filter (fun e => e.1 ≠ reference)) env d
    else (.returned (), d)

/-! ### Runs -/

inductive StoreCall (F : Fernet Bytes Nonce) where
  | set (reference value : String) (env : Env F)
  | delete (reference : String) (env : Env F)
  | get (reference : String)
  /-- The operator changes the mode of a file. -/
  | chmod (path : StoreFile) (mode : ℕ)

def exec (d : State Bytes) : StoreCall S.fernet → State Bytes
  | .set reference value env => (S.set reference value env d).2
  | .delete reference env => (S.delete reference env d).2
  | .get _ => d
  | .chmod path mode => d.chmod path mode

/-- Every file that is there is private. -/
def Open (d : State Bytes) : Prop :=
  (∀ f, d.files .masterKey = some f → f.Private) ∧ ∀ f, d.files .secrets = some f → f.Private

instance (d : State Bytes) (path : StoreFile) : Decidable (∀ f, d.files path = some f → f.Private) :=
  match h : d.files path with
  | none => .isTrue (by simp)
  | some f => decidable_of_iff f.Private (by simp)

instance (d : State Bytes) : Decidable (Open d) :=
  inferInstanceAs (Decidable (_ ∧ _))

/-- The key is there, or this call gets as far as to have one. -/
def keyed (env : Env S.fernet) (d : State Bytes) : Bool :=
  (d.files .masterKey).isSome || env.keyFault.completes

/-- The secret that a call has set or removed when it stops: the file of the secrets is replaced. -/
def applied (d : State Bytes) : StoreCall S.fernet → Option (String × Option String)
  | .set reference value env =>
    if (reference ≠ "" ∧ value ≠ "") ∧ Open d ∧ S.keyed env d = true ∧ env.secretFault.replaces = true then
      some (reference, some value)
    else none
  | .delete reference env =>
    if (S.get reference d).toOption.join.isSome ∧ env.secretFault.replaces = true then some (reference, none)
    else none
  | _ => none

/-- A call, and beside the files what the calls so far have made of the secrets. -/
def track (s : State Bytes × (String → Option String)) (c : StoreCall S.fernet) :
    State Bytes × (String → Option String) :=
  (S.exec s.1 c,
    match S.applied s.1 c with
    | none => s.2
    | some (reference, value) => Function.update s.2 reference value)

def fresh : State Bytes := { files := fun _ => none }

/-- The file whose mode keeps the secrets from being read. -/
def lock (d : State Bytes) : Option StoreFile :=
  match d.files .secrets with
  | none => none
  | some f =>
    if f.Private then
      match d.files .masterKey with
      | none => none
      | some k => if k.Private then none else some .masterKey
    else some .secrets

end Store

/-- `EncryptedFileSecretStore.mask`. -/
def mask (value : Option String) : Option String :=
  match value with
  | none => none
  | some v =>
    if v = "" then none
    else
      let suffix := if 4 ≤ v.length then v.toList.drop (v.length - 4) else "****".toList
      some (String.ofList (if 7 < v.length then v.toList.take 3 ++ "-************".toList ++ suffix
        else "***".toList ++ suffix))

/-! ### What the files hold -/

namespace Store

variable (S : Store Bytes Nonce)

/-- The files hold these secrets: the key was generated, and under it the other file is their token. -/
structure Holds (d : State Bytes) (values : Dict String String) : Prop where
  key : ∀ f, d.files .masterKey = some f → S.fernet.generated f.content
  token : ∀ f, d.files .secrets = some f →
    ∃ k, d.files .masterKey = some k ∧ S.fernet.decrypt k.content f.content = some (asJson values)
  empty : d.files .secrets = none → values = []
  nodup : (values.map Prod.fst).Nodup
  strays : ∀ f ∈ d.strays, f.Private

variable {S} {d d' : State Bytes} {values : Dict String String}

lemma valuesOf_asJson (values : Dict String String) : valuesOf (asJson values) = some values := by
  rw [asJson, valuesOf, List.mapM_map]
  induction values with
  | nil => rfl
  | cons e values ih => simp_all [Json.text?]

lemma private_ownerOnly (b : Bytes) : (⟨ownerOnly, b⟩ : File Bytes).Private := by
  change ownerOnly &&& 0o077 = 0
  decide

lemma openKey_of_holds (hF : S.fernet.Lawful) (h : S.Holds d values) {f : File Bytes}
    (hf : d.files .masterKey = some f) :
    S.openKey f = if f.Private then .ok f.content else .error (S.insecure .masterKey) := by
  rw [openKey, if_pos (hF.accepts _ (h.key f hf))]

/-- What is read from such files. -/
lemma readAll_of_holds (hF : S.fernet.Lawful) (h : S.Holds d values) :
    S.readAll d = match lock d with
      | some path => .error (S.insecure path)
      | none => .ok values := by
  rw [readAll, lock]
  cases hs : d.files .secrets with
  | none => rw [h.empty hs]
  | some f =>
    obtain ⟨k, hk, hdec⟩ := h.token f hs
    by_cases hf : f.Private
    · simp only [hf, if_true, readKey, hk, openKey_of_holds hF h hk]
      by_cases hkp : k.Private
      · simp [hkp, hdec, valuesOf_asJson]
      · simp [hkp, insecure]
    · simp [hf]

lemma lock_of_open (hopen : Open d) : lock d = none := by
  unfold lock
  cases hs : d.files .secrets with
  | none => rfl
  | some f =>
    cases hk : d.files .masterKey with
    | none => simp [hopen.2 f hs]
    | some k => simp [hopen.2 f hs, hopen.1 k hk]

/-- If nothing locks the secrets and the key is private, all files are. -/
lemma open_of_lock (hl : lock d = none)
    (hk : ∀ f, d.files .masterKey = some f → f.Private) : Open d := by
  refine ⟨hk, fun f hf => ?_⟩
  by_contra hp
  rw [lock, hf] at hl
  simp [hp] at hl

/-! ### What a write leaves -/

/-- A write that is not done leaves the file as it was or with the new content. -/
lemma files_atomicWrite (target : StoreFile) (content : Bytes) (fault : Fault Bytes) (d : State Bytes) :
    (S.atomicWrite target content fault d).2.files =
      if fault.replaces then Function.update d.files target (some ⟨ownerOnly, content⟩) else d.files := by
  cases fault with
  | none => simp [atomicWrite, files_interrupt, Fault.replaces, renamed]
  | killed n part => simp [atomicWrite, files_interrupt, Fault.replaces]
  | failed n part => simp [atomicWrite, files_interrupt, Fault.replaces]

lemma strays_atomicWrite (target : StoreFile) (content : Bytes) (fault : Fault Bytes)
    (h : ∀ f ∈ d.strays, f.Private) : ∀ f ∈ (S.atomicWrite target content fault d).2.strays, f.Private := by
  cases fault with
  | none => exact strays_interrupt private_ownerOnly h 6
  | killed n part => exact strays_interrupt private_ownerOnly h n
  | failed n part =>
    simp only [atomicWrite, strays_cleanUp_interrupt]
    exact h

lemma atomicWrite_returned_iff (target : StoreFile) (content : Bytes) (fault : Fault Bytes) (d : State Bytes) :
    (S.atomicWrite target content fault d).1 = .returned () ↔ fault.completes = true := by
  cases fault <;> simp [atomicWrite, Fault.completes]

lemma replaces_of_completes {fault : Fault Bytes} (h : fault.completes = true) : fault.replaces = true := by
  cases fault with
  | none => rfl
  | killed n part => cases h
  | failed n part => cases h

/-- A new key goes with no secrets. -/
lemma Holds.newKey (h : S.Holds d values) (hk : d.files .masterKey = none) {k : Bytes} (hgen : S.fernet.generated k)
    (fault : Fault Bytes) : S.Holds (S.atomicWrite .masterKey k fault d).2 values := by
  have hs : d.files .secrets = none := by
    rw [Option.eq_none_iff_forall_ne_some]
    intro f hf
    obtain ⟨k', hk', -⟩ := h.token f hf
    rw [hk] at hk'
    cases hk'
  have hfiles := files_atomicWrite (S := S) .masterKey k fault d
  have hs' : (S.atomicWrite .masterKey k fault d).2.files .secrets = none := by
    rw [hfiles]
    split <;> simp [hs]
  refine ⟨fun f hf => ?_, fun f hf => ?_, fun _ => h.empty hs, h.nodup, strays_atomicWrite _ _ _ h.strays⟩
  · rw [hfiles] at hf
    split at hf
    · rw [Function.update_self] at hf
      obtain rfl := Option.some.inj hf
      exact hgen
    · exact h.key f hf
  · rw [hs'] at hf
    cases hf

/-- A token written under the key of the file. -/
lemma Holds.newToken (hF : S.fernet.Lawful) (h : S.Holds d values) {k : File Bytes} (hk : d.files .masterKey = some k)
    {values' : Dict String String} (hn : (values'.map Prod.fst).Nodup) (nonce : Nonce) (fault : Fault Bytes) :
    S.Holds (S.atomicWrite .secrets (S.fernet.encrypt k.content nonce values') fault d).2
      (if fault.replaces then values' else values) := by
  have hfiles := files_atomicWrite (S := S) .secrets (S.fernet.encrypt k.content nonce values') fault d
  have hstrays := strays_atomicWrite (S := S) .secrets (S.fernet.encrypt k.content nonce values') fault h.strays
  generalize S.atomicWrite .secrets (S.fernet.encrypt k.content nonce values') fault d = r at hfiles hstrays ⊢
  cases hr : fault.replaces with
  | false =>
    rw [hr, if_neg (by simp)] at hfiles
    rw [if_neg (by simp)]
    refine ⟨?_, ?_, ?_, h.nodup, hstrays⟩
    · rw [hfiles]
      exact h.key
    · rw [hfiles]
      exact h.token
    · rw [hfiles]
      exact h.empty
  | true =>
    rw [hr, if_pos rfl] at hfiles
    rw [if_pos rfl]
    refine ⟨?_, ?_, ?_, hn, hstrays⟩
    · intro f hf
      rw [hfiles, Function.update_of_ne (by decide)] at hf
      exact h.key f hf
    · intro f hf
      rw [hfiles, Function.update_self] at hf
      obtain rfl := Option.some.inj hf
      exact ⟨k, by rw [hfiles, Function.update_of_ne (by decide), hk],
        hF.decrypt_encrypt _ _ _ (h.key k hk) hn⟩
    · intro hnone
      rw [hfiles, Function.update_self] at hnone
      cases hnone

/-- `_fernet(create=True)`: it gives the key of the file if the key is private and there or written without a
fault, and else leaves the secrets as they were. -/
lemma createKey_cases (hF : S.fernet.Lawful) (h : S.Holds d values) (env : Env S.fernet) :
    (((∀ f, d.files .masterKey = some f → f.Private) ∧ S.keyed env d = true) ∧
      ∃ k, (S.createKey env d).1 = .returned k.content ∧ (S.createKey env d).2.files .masterKey = some k ∧
        S.Holds (S.createKey env d).2 values) ∨
    (¬ ((∀ f, d.files .masterKey = some f → f.Private) ∧ S.keyed env d = true) ∧
      (∀ k, (S.createKey env d).1 ≠ .returned k) ∧ S.Holds (S.createKey env d).2 values) := by
  cases hk : d.files .masterKey with
  | some f =>
    have hcreate : S.createKey env d =
        if f.Private then (.returned f.content, d) else (.raised (S.insecure .masterKey), d) := by
      simp only [createKey, hk, readKey, openKey_of_holds hF h hk]
      by_cases hp : f.Private <;> simp [hp]
    rw [hcreate]
    by_cases hp : f.Private
    · exact .inl ⟨⟨by simpa using hp, by simp [keyed, hk]⟩, f, by simp [hp], by simp [hp, hk], by simpa [hp] using h⟩
    · exact .inr ⟨fun hc => hp (hc.1 f rfl), by simp [hp], by simpa [hp] using h⟩
  | none =>
    have hnew := h.newKey hk env.key.2 env.keyFault
    cases hfault : env.keyFault with
    | none =>
      have hfile : (S.atomicWrite .masterKey env.key.1 .none d).2.files .masterKey = some ⟨ownerOnly, env.key.1⟩ := by
        rw [files_atomicWrite, Fault.replaces, if_pos rfl, Function.update_self]
      rw [hfault] at hnew
      have hcreate : S.createKey env d = (.returned env.key.1, (S.atomicWrite .masterKey env.key.1 .none d).2) := by
        simp only [createKey, hk, hfault]
        change (match S.readKey (S.atomicWrite .masterKey env.key.1 .none d).2 with
          | .ok k => (Outcome.returned k, (S.atomicWrite .masterKey env.key.1 .none d).2)
          | .error e => (Outcome.raised e, (S.atomicWrite .masterKey env.key.1 .none d).2)) = _
        rw [readKey, hfile]
        simp only [openKey_of_holds hF hnew hfile, private_ownerOnly, if_true]
      rw [hcreate]
      exact .inl ⟨⟨by simp, by simp [keyed, hk, hfault, Fault.completes]⟩, _, rfl, hfile, hnew⟩
    | killed n part =>
      have hcreate : S.createKey env d = (.killed, (S.atomicWrite .masterKey env.key.1 (.killed n part) d).2) := by
        simp only [createKey, hk, hfault]
        rfl
      rw [hcreate, ← hfault]
      exact .inr ⟨by simp [keyed, hk, hfault, Fault.completes], by simp, hnew⟩
    | failed n part =>
      have hcreate : S.createKey env d =
          (.raised .osError, (S.atomicWrite .masterKey env.key.1 (.failed n part) d).2) := by
        simp only [createKey, hk, hfault]
        rfl
      rw [hcreate, ← hfault]
      exact .inr ⟨by simp [keyed, hk, hfault, Fault.completes], by simp, hnew⟩

/-- The file of the secrets is replaced if a key is had and the fault lets it, and else nothing is lost. -/
lemma writeAll_spec (hF : S.fernet.Lawful) (h : S.Holds d values) {values' : Dict String String}
    (hn : (values'.map Prod.fst).Nodup) (env : Env S.fernet)
    [Decidable ((∀ f, d.files .masterKey = some f → f.Private) ∧ S.keyed env d = true ∧
      env.secretFault.replaces = true)] :
    S.Holds (S.writeAll values' env d).2
      (if (∀ f, d.files .masterKey = some f → f.Private) ∧ S.keyed env d = true ∧ env.secretFault.replaces = true
        then values' else values) ∧
      ((S.writeAll values' env d).1 = .returned () →
        (∀ f, d.files .masterKey = some f → f.Private) ∧ S.keyed env d = true ∧ env.secretFault.replaces = true) := by
  rcases createKey_cases hF h env with ⟨⟨hopen, hkeyed⟩, k, hret, hkey, hholds⟩ | ⟨hnot, hret, hholds⟩
  · have hwrite : S.writeAll values' env d = S.atomicWrite .secrets
        (S.fernet.encrypt k.content env.nonce values') env.secretFault (S.createKey env d).2 := by
      rw [writeAll]
      generalize S.createKey env d = r at hret
      obtain ⟨o, d'⟩ := r
      obtain rfl : o = .returned k.content := hret
      rfl
    rw [hwrite]
    have hnew := hholds.newToken hF hkey hn env.nonce env.secretFault
    refine ⟨?_, fun hdone => ⟨hopen, hkeyed, replaces_of_completes ((atomicWrite_returned_iff _ _ _ _).mp hdone)⟩⟩
    by_cases hr : env.secretFault.replaces = true
    · rw [if_pos ⟨hopen, hkeyed, hr⟩]
      simpa [hr] using hnew
    · rw [if_neg (fun hc => hr hc.2.2)]
      simpa [hr] using hnew
  · have hsnd : (S.writeAll values' env d).2 = (S.createKey env d).2 ∧ (S.writeAll values' env d).1 ≠ .returned () := by
      rw [writeAll]
      generalize S.createKey env d = r at hret
      obtain ⟨o, d'⟩ := r
      cases o with
      | returned k => exact absurd rfl (hret k)
      | raised e => exact ⟨rfl, by simp⟩
      | killed => exact ⟨rfl, by simp⟩
    rw [hsnd.1, if_neg (fun hc => hnot ⟨hc.1, hc.2.1⟩)]
    exact ⟨hholds, fun hdone => absurd hdone hsnd.2⟩

lemma get_of_holds (hF : S.fernet.Lawful) (h : S.Holds d values) (reference : String) :
    S.get reference d = match lock d with
      | some path => .error (S.insecure path)
      | none => .ok (Dict.get reference values) := by
  rw [get, readAll_of_holds hF h]
  cases lock d <;> rfl

lemma Holds.chmod (h : S.Holds d values) (path : StoreFile) (mode : ℕ) : S.Holds (d.chmod path mode) values := by
  have hcontent : ∀ q, ((d.chmod path mode).files q).map File.content = (d.files q).map File.content := by
    intro q
    by_cases hq : q = path
    · subst hq
      simp only [Disk.chmod, Function.update_self, Option.map_map]
      rfl
    · simp [Disk.chmod, Function.update_of_ne hq]
  have hback : ∀ q f, (d.chmod path mode).files q = some f → ∃ g, d.files q = some g ∧ g.content = f.content := by
    intro q f hf
    have := hcontent q
    rw [hf, Option.map_some, eq_comm, Option.map_eq_some_iff] at this
    exact this
  refine ⟨fun f hf => ?_, fun f hf => ?_, fun hnone => ?_, h.nodup, h.strays⟩
  · obtain ⟨g, hg, hc⟩ := hback _ f hf
    exact hc ▸ h.key g hg
  · obtain ⟨g, hg, hc⟩ := hback _ f hf
    obtain ⟨k, hk, hdec⟩ := h.token g hg
    have hk' := hcontent .masterKey
    rw [hk, Option.map_some, Option.map_eq_some_iff] at hk'
    obtain ⟨k', hk', hkc⟩ := hk'
    exact ⟨k', hk', by rw [hkc, ← hc, hdec]⟩
  · apply h.empty
    have hs := hcontent .secrets
    rw [hnone, Option.map_none, eq_comm, Option.map_eq_none_iff] at hs
    exact hs

lemma not_open_of_lock {path : StoreFile} (hl : lock d = some path) : ¬ Open d := by
  intro hopen
  rw [lock_of_open hopen] at hl
  cases hl

lemma set_spec (hF : S.fernet.Lawful) (h : S.Holds d values) (reference value : String) (env : Env S.fernet) :
    (S.applied d (.set reference value env) = some (reference, some value) ∧
      S.Holds (S.set reference value env d).2 (values.alter reference (fun _ => value))) ∨
    (S.applied d (.set reference value env) = none ∧ (S.set reference value env d).1 ≠ .returned () ∧
      S.Holds (S.set reference value env d).2 values) := by
  by_cases hempty : reference = "" ∨ value = ""
  · have hset : S.set reference value env d =
        (.raised (.valueError "secret reference and value are required"), d) := by rw [set, if_pos hempty]
    rw [hset, applied, if_neg (fun hc => hempty.elim hc.1.1 hc.1.2)]
    exact .inr ⟨rfl, by simp, h⟩
  · cases hl : lock d with
    | some path =>
      have hset : S.set reference value env d = (.raised (S.insecure path), d) := by
        rw [set, if_neg hempty, readAll_of_holds hF h, hl]
      rw [hset, applied, if_neg (fun hc => not_open_of_lock hl hc.2.1)]
      exact .inr ⟨rfl, by simp, h⟩
    | none =>
      have hset : S.set reference value env d = S.writeAll (values.alter reference (fun _ => value)) env d := by
        rw [set, if_neg hempty, readAll_of_holds hF h, hl]
      rw [hset, applied]
      obtain ⟨hholds, hdone⟩ := writeAll_spec hF h (nodup_upsert h.nodup (reference, value)) env
      by_cases hc : (∀ f, d.files .masterKey = some f → f.Private) ∧ S.keyed env d = true ∧
          env.secretFault.replaces = true
      · rw [if_pos hc] at hholds
        rw [if_pos ⟨not_or.mp hempty, open_of_lock hl hc.1, hc.2⟩]
        exact .inl ⟨rfl, hholds⟩
      · rw [if_neg hc] at hholds
        rw [if_neg (fun hc' => hc ⟨hc'.2.1.1, hc'.2.2⟩)]
        exact .inr ⟨rfl, fun hret => hc (hdone hret), hholds⟩

lemma delete_spec (hF : S.fernet.Lawful) (h : S.Holds d values) (reference : String) (env : Env S.fernet) :
    (S.applied d (.delete reference env) = some (reference, none) ∧
      S.Holds (S.delete reference env d).2 (values.filter (fun e => e.1 ≠ reference))) ∨
    (S.applied d (.delete reference env) = none ∧
      ((S.delete reference env d).1 = .returned () → Dict.get reference values = none) ∧
      S.Holds (S.delete reference env d).2 values) := by
  cases hl : lock d with
  | some path =>
    have hdelete : S.delete reference env d = (.raised (S.insecure path), d) := by
      rw [delete, readAll_of_holds hF h, hl]
    have hget := get_of_holds hF h reference
    rw [hl] at hget
    rw [hdelete, applied, hget, if_neg (by simp [Except.toOption])]
    exact .inr ⟨rfl, by simp, h⟩
  | none =>
    have hget := get_of_holds hF h reference
    rw [hl] at hget
    rw [delete, readAll_of_holds hF h, hl, applied, hget]
    by_cases hmem : reference ∈ values.map Prod.fst
    · obtain ⟨e, he⟩ := row_isSome_iff.mpr hmem
      have hsome : (Dict.get reference values).isSome = true := by rw [Dict.get, he]; rfl
      have hfile : d.files .secrets ≠ none := by
        intro hnone
        rw [h.empty hnone] at hmem
        exact absurd hmem List.not_mem_nil
      obtain ⟨f, hf⟩ := Option.ne_none_iff_exists'.mp hfile
      obtain ⟨k, hk, -⟩ := h.token f hf
      have hkeyed : S.keyed env d = true := by simp [keyed, hk]
      have hprivate : ∀ f, d.files .masterKey = some f → f.Private := by
        rw [lock, hf, hk] at hl
        intro k' hk'
        rw [hk] at hk'
        obtain rfl := Option.some.inj hk'
        by_contra hp
        by_cases hfp : f.Private <;> simp [hp, hfp] at hl
      obtain ⟨hholds, hdone⟩ := writeAll_spec hF h (nodup_filter h.nodup (fun e => e.1 ≠ reference)) env
      simp only [hmem, if_true, Except.toOption, Option.join_some, hsome, true_and]
      by_cases hr : env.secretFault.replaces = true
      · rw [if_pos ⟨hprivate, hkeyed, hr⟩] at hholds
        rw [if_pos hr]
        exact .inl ⟨rfl, hholds⟩
      · rw [if_neg (fun hc => hr hc.2.2)] at hholds
        rw [if_neg hr]
        exact .inr ⟨rfl, fun hret => absurd (hdone hret).2.2 hr, hholds⟩
    · have hnone : Dict.get reference values = none := by
        rw [Dict.get, row_eq_none_iff.mpr hmem]
        rfl
      simp only [hmem, if_false, hnone]
      exact .inr ⟨by simp [Except.toOption], fun _ => trivial, h⟩

lemma get_alter (reference value : String) (values : Dict String String) :
    (fun r => Dict.get r (values.alter reference (fun _ => value))) =
      Function.update (fun r => Dict.get r values) reference (some value) := by
  funext r
  by_cases hr : r = reference
  · subst hr
    rw [Function.update_self, Dict.get_alter_self]
  · rw [Function.update_of_ne hr, Dict.get_alter_of_ne hr]

lemma get_filter (reference : String) (values : Dict String String) :
    (fun r => Dict.get r (values.filter (fun e => e.1 ≠ reference))) =
      Function.update (fun r => Dict.get r values) reference none := by
  funext r
  by_cases hr : r = reference
  · subst hr
    rw [Function.update_self, Dict.get, row_filter_self]
    rfl
  · rw [Function.update_of_ne hr, Dict.get, row_filter_of_ne _ hr, Dict.get]

/-- One call. -/
lemma track_holds (hF : S.fernet.Lawful) {m : String → Option String} (h : S.Holds d values)
    (hm : m = fun r => Dict.get r values) (c : StoreCall S.fernet) :
    ∃ values', S.Holds (S.track (d, m) c).1 values' ∧ (S.track (d, m) c).2 = fun r => Dict.get r values' := by
  cases c with
  | set reference value env =>
    rcases set_spec hF h reference value env with ⟨happlied, hholds⟩ | ⟨happlied, -, hholds⟩
    · exact ⟨_, hholds, by rw [track, happlied, get_alter, hm]⟩
    · exact ⟨_, hholds, by rw [track, happlied, hm]⟩
  | delete reference env =>
    rcases delete_spec hF h reference env with ⟨happlied, hholds⟩ | ⟨happlied, -, hholds⟩
    · exact ⟨_, hholds, by rw [track, happlied, get_filter, hm]⟩
    · exact ⟨_, hholds, by rw [track, happlied, hm]⟩
  | get reference => exact ⟨values, h, hm⟩
  | chmod path mode => exact ⟨values, h.chmod path mode, hm⟩

lemma holds_fresh : S.Holds (fresh : State Bytes) [] := by
  refine ⟨?_, ?_, fun _ => rfl, List.nodup_nil, ?_⟩ <;> simp [fresh]

lemma run_holds (hF : S.fernet.Lawful) (calls : List (StoreCall S.fernet)) :
    ∃ values, S.Holds (Runs.run S.track (fresh, fun _ => none) calls).1 values ∧
      (Runs.run S.track (fresh, fun _ => none) calls).2 = fun r => Dict.get r values := by
  induction calls using List.reverseRecOn with
  | nil => exact ⟨[], holds_fresh, by simp [Dict.get_nil]⟩
  | append_singleton calls c ih =>
    obtain ⟨values, hholds, hm⟩ := ih
    rw [Runs.run_append, Runs.run_cons, Runs.run_nil]
    exact track_holds hF hholds hm c

/-- The key is written once. -/
lemma key_atomicWrite {f : File Bytes} (hk : d.files .masterKey = some f) (content : Bytes) (fault : Fault Bytes) :
    (S.atomicWrite .secrets content fault d).2.files .masterKey = some f := by
  rw [files_atomicWrite]
  split
  · rw [Function.update_of_ne (by decide), hk]
  · exact hk

lemma key_writeAll {f : File Bytes} (hk : d.files .masterKey = some f) (values : Dict String String) (env : Env S.fernet) :
    (S.writeAll values env d).2.files .masterKey = some f := by
  have hcreate : (S.createKey env d).2 = d := by
    simp only [createKey, hk]
    cases S.readKey d <;> rfl
  rw [writeAll]
  generalize S.createKey env d = r at hcreate
  obtain ⟨o, d'⟩ := r
  obtain rfl : d' = d := hcreate
  cases o with
  | returned k => exact key_atomicWrite hk _ _
  | raised e => exact hk
  | killed => exact hk

lemma key_exec {f : File Bytes} (hk : d.files .masterKey = some f) (c : StoreCall S.fernet) :
    ((S.exec d c).files .masterKey).map File.content = some f.content := by
  cases c with
  | set reference value env =>
    rw [exec, set]
    split
    · rw [hk, Option.map_some]
    · cases S.readAll d with
      | error e => rw [hk, Option.map_some]
      | ok values => rw [key_writeAll hk, Option.map_some]
  | delete reference env =>
    rw [exec, delete]
    cases S.readAll d with
    | error e => rw [hk, Option.map_some]
    | ok values =>
      simp only
      split
      · rw [key_writeAll hk, Option.map_some]
      · rw [hk, Option.map_some]
  | get reference => rw [exec, hk, Option.map_some]
  | chmod path mode =>
    simp only [exec, Disk.chmod]
    by_cases hp : path = .masterKey
    · rw [← hp, Function.update_self, Option.map_map]
      simp [hp, hk]
    · rw [Function.update_of_ne (Ne.symm hp), hk, Option.map_some]

/-- After any run of calls, each of which may be stopped by the death of its process or by a failing system
call at any point of a write, the store answers with what the calls whose file was replaced have set and removed,
unless a file is not private, which it names. A call that returns has been applied, the temporary files that
stayed behind are private, and no call takes another key once there is one. -/
theorem secret_store_run (hF : S.fernet.Lawful) (calls : List (StoreCall S.fernet)) :
    let d := (Runs.run S.track (fresh, fun _ => none) calls).1
    let secrets := (Runs.run S.track (fresh, fun _ => none) calls).2
    (∀ reference, S.get reference d = match lock d with
      | some path => .error (S.insecure path)
      | none => .ok (secrets reference)) ∧
    (∀ reference value env, (S.set reference value env d).1 = .returned () →
      S.applied d (.set reference value env) = some (reference, some value)) ∧
    (∀ reference env, (S.delete reference env d).1 = .returned () →
      S.applied d (.delete reference env) = some (reference, none) ∨ secrets reference = none) ∧
    (∀ f ∈ d.strays, f.Private) ∧
    ∀ c f, d.files .masterKey = some f → ((S.exec d c).files .masterKey).map File.content = some f.content := by
  obtain ⟨values, hholds, hm⟩ := run_holds hF calls
  intro d secrets
  refine ⟨fun reference => ?_, fun reference value env hret => ?_, fun reference env hret => ?_, hholds.strays,
    fun c f hk => key_exec hk c⟩
  · rw [show secrets reference = Dict.get reference values from congrFun hm reference]
    exact get_of_holds hF hholds reference
  · rcases set_spec hF hholds reference value env with ⟨happlied, -⟩ | ⟨-, hne, -⟩
    · exact happlied
    · exact absurd hret hne
  · rcases delete_spec hF hholds reference env with ⟨happlied, -⟩ | ⟨-, hnone, -⟩
    · exact .inl happlied
    · exact .inr ((congrFun hm reference).trans (hnone hret))

/-- Contents of files for a run: keys, and tokens that remember what they were made of. -/
inductive SampleBytes where
  | text (s : String)
  | token (key : String) (nonce : ℕ) (values : Dict String String)
  deriving DecidableEq

def sampleFernet : Fernet SampleBytes ℕ where
  generated b := b = .text "generated-key"
  accepts b := b = .text "generated-key"
  encrypt
    | .text key, nonce, values => .token key nonce values
    | .token _ _ _, _, _ => .text ""
  decrypt
    | .text key, .token key' _ values => if key = key' then some (asJson values) else none
    | _, _ => none
  empty := .text ""

lemma sampleFernet_lawful : sampleFernet.Lawful := by
  refine ⟨fun k hk => decide_eq_true hk, fun k nonce values hk _ => ?_⟩
  obtain rfl : k = .text "generated-key" := hk
  simp [sampleFernet]

def sampleStore : Store SampleBytes ℕ where
  fernet := sampleFernet
  name
    | .masterKey => "llm_master.key"
    | .secrets => "llm_secrets.enc"

def sampleEnv (fault : Fault SampleBytes) : Env sampleStore.fernet where
  key := ⟨.text "generated-key", rfl⟩
  nonce := 0
  secretFault := fault

/-- The second call dies before the rename, the third one right after it. -/
def sampleCalls : List (StoreCall sampleStore.fernet) :=
  [.set "openai" "sk-1" (sampleEnv .none),
    .set "openai" "sk-2" (sampleEnv (.killed 4 (.text "\x7b"))),
    .set "anthropic" "sk-3" (sampleEnv (.killed 5 (.text "\x7b")))]

theorem secret_store_run_killed :
    let d := (Runs.run sampleStore.track (fresh, fun _ => none) sampleCalls).1
    sampleStore.get "openai" d = .ok (some "sk-1") ∧ sampleStore.get "anthropic" d = .ok (some "sk-3") ∧
      ∀ f ∈ d.strays, f.Private := by
  have hrun := secret_store_run (S := sampleStore) sampleFernet_lawful sampleCalls
  have hlock : lock (Runs.run sampleStore.track (fresh, fun _ => none) sampleCalls).1 = none := by decide
  have hone : (Runs.run sampleStore.track (fresh, fun _ => none) sampleCalls).2 "openai" = some "sk-1" := by decide
  have htwo : (Runs.run sampleStore.track (fresh, fun _ => none) sampleCalls).2 "anthropic" = some "sk-3" := by decide
  refine ⟨?_, ?_, hrun.2.2.2.1⟩
  · rw [hrun.1, hlock, hone]
  · rw [hrun.1, hlock, htwo]

end Store

end CryptoTrader.Secrets
