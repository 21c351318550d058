import DataOpsStudio.Library.Text
import DataOpsStudio.Library.TransitionSystem
import Mathlib.Logic.Function.Basic

/-!
# The secret store

Secrets are kept as ciphertexts under a master key.  The operations on one store run concurrently
and without locks: each goes through its own steps (a look at the key, a look at the rows, a write
to the rows, a swap of the key), and the steps of all operations are interleaved.  Besides the key
and the rows a state remembers the plaintext that was last written for every reference, and which
operations have changed the key or the rows.
-/

namespace Secrets

/-- A cipher that is correct, and authenticated: a ciphertext is rejected under another key.  The
number is what the encryption draws at random. -/
structure Cipher (Key Ciphertext : Type) where
  encrypt : Key → ℕ → Text → Ciphertext
  decrypt : Key → Ciphertext → Option Text
  decrypt_encrypt : ∀ key draw plaintext, decrypt key (encrypt key draw plaintext) = some plaintext
  authentic : ∀ key key' draw plaintext, key ≠ key' →
    decrypt key' (encrypt key draw plaintext) = none

/-- The kinds of application secrets. -/
inductive SecretKind where
  | datasourcePassword
  | aiApiKey
  | mfaTotpSeed
  | oauthToken
  | webhookSecret
  | signedUrlSecret
deriving DecidableEq

/-- A row of the table of secrets. -/
structure SecretRecord (Ciphertext : Type) where
  ref : Text
  kind : SecretKind
  ciphertext : Ciphertext
deriving DecidableEq

/-- What an operation can raise. -/
inductive SecretError where
  | notFound (ref : Text)
  | kindMismatch (ref : Text)
  | storage
deriving DecidableEq

/-- How an operation has ended. -/
inductive Outcome where
  | stored (ref : Text) (kind : SecretKind)
  | rotated (ref : Text)
  | deleted
  | report (rotatedCount : ℕ) (failedRefs : List Text)
  | raised (error : SecretError)
deriving DecidableEq

/-- The operations. -/
inductive Call (Key : Type) where
  | storeSecret (plaintext : Text) (kind : SecretKind)
  | rotateSecret (ref : Text) (kind : SecretKind) (newPlaintext : Text)
  | deleteSecret (ref : Text) (kind : SecretKind)
  | rotateMasterKey (newKey : Key)

/-- Where an operation is, with its local variables.  A ciphertext that is about to be written
comes with the key it was made with. -/
inductive Point (Key Ciphertext : Type) where
  | encrypt (plaintext : Text) (kind : SecretKind)
  | insertSecret (ref : Text) (kind : SecretKind) (plaintext : Text) (key : Key)
      (ciphertext : Ciphertext)
  | getSecret (ref : Text) (kind : SecretKind) (plaintext : Text)
  | encryptNew (ref : Text) (plaintext : Text)
  | updateSecret (ref : Text) (plaintext : Text) (key : Key) (ciphertext : Ciphertext)
  | deleteSecret (ref : Text)
  | listSecrets (newKey : Key)
  | decryptRecords (newKey : Key) (records : List (SecretRecord Ciphertext))
      (plaintextByRef : List (Text × Text)) (failedRefs : List Text)
  | updateMany (newKey : Key) (ciphertextByRef : List (Text × Ciphertext))
  | swapKey (newKey : Key) (rotatedCount : ℕ)
  | finished (outcome : Outcome)

/-- The first step of an operation. -/
def Call.start {Key Ciphertext : Type} : Call Key → Point Key Ciphertext
  | .storeSecret plaintext kind => .encrypt plaintext kind
  | .rotateSecret ref kind newPlaintext => .getSecret ref kind newPlaintext
  | .deleteSecret ref _ => .deleteSecret ref
  | .rotateMasterKey newKey => .listSecrets newKey

/-- A running operation. -/
structure Operation (Key Ciphertext : Type) where
  call : Call Key
  point : Point Key Ciphertext

/-- What the operations share: the key, the rows, and the plaintext last written for every
reference. -/
structure Store (Key Ciphertext : Type) where
  key : Key
  rows : List (SecretRecord Ciphertext)
  written : Text → Text

/-- A store with the operations on it, and those of them that have changed the key or the rows. -/
structure State (Key Ciphertext : Type) where
  store : Store Key Ciphertext
  operations : List (Operation Key Ciphertext)
  touched : List ℕ

section Steps

variable {Key Ciphertext : Type}

/-- The rows with another ciphertext for a reference. -/
def updateCiphertext (rows : List (SecretRecord Ciphertext)) (ref : Text)
    (ciphertext : Ciphertext) : List (SecretRecord Ciphertext) :=
  rows.map (fun row => if row.ref = ref then { row with ciphertext } else row)

/-- The rows with other ciphertexts for some references, written in one transaction. -/
def updateManyCiphertexts (rows : List (SecretRecord Ciphertext))
    (ciphertextByRef : List (Text × Ciphertext)) : List (SecretRecord Ciphertext) :=
  ciphertextByRef.foldl (fun rows p => updateCiphertext rows p.1 p.2) rows

/-- The next step of an operation: what it leaves of the store, and where the operation is then.
The reference is the one that is minted if the step mints one. -/
def perform (cipher : Cipher Key Ciphertext) (store : Store Key Ciphertext) (minted : Text)
    (draw : Text → ℕ) : Point Key Ciphertext → Option (Store Key Ciphertext × Point Key Ciphertext)
  | .encrypt plaintext kind =>
      some (store, .insertSecret minted kind plaintext store.key
        (cipher.encrypt store.key (draw minted) plaintext))
  | .insertSecret ref kind plaintext _ ciphertext =>
      -- the reference is the primary key of the table
      if store.rows.any (fun row => decide (row.ref = ref)) then
        some (store, .finished (.raised .storage))
      else
        some ({ store with
            rows := store.rows ++ [⟨ref, kind, ciphertext⟩]
            written := Function.update store.written ref plaintext },
          .finished (.stored ref kind))
  | .getSecret ref kind plaintext =>
      match store.rows.find? (fun row => decide (row.ref = ref)) with
      | none => some (store, .finished (.raised (.notFound ref)))
      | some record =>
          if record.kind ≠ kind then some (store, .finished (.raised (.kindMismatch ref)))
          else some (store, .encryptNew record.ref plaintext)
  | .encryptNew ref plaintext =>
      some (store, .updateSecret ref plaintext store.key
        (cipher.encrypt store.key (draw ref) plaintext))
  | .updateSecret ref plaintext _ ciphertext =>
      some ({ store with
          rows := updateCiphertext store.rows ref ciphertext
          written := Function.update store.written ref plaintext },
        .finished (.rotated ref))
  | .deleteSecret ref =>
      some ({ store with rows := store.rows.filter (fun row => decide (row.ref ≠ ref)) },
        .finished .deleted)
  | .listSecrets newKey => some (store, .decryptRecords newKey store.rows [] [])
  | .decryptRecords newKey [] plaintextByRef failedRefs =>
      if failedRefs ≠ [] then some (store, .finished (.report 0 failedRefs))
      else
        some (store, .updateMany newKey
          (plaintextByRef.map (fun p => (p.1, cipher.encrypt newKey (draw p.1) p.2))))
  | .decryptRecords newKey (record :: records) plaintextByRef failedRefs =>
      match cipher.decrypt store.key record.ciphertext with
      | some plaintext =>
          some (store,
            .decryptRecords newKey records (plaintextByRef ++ [(record.ref, plaintext)]) failedRefs)
      | none =>
          some (store,
            .decryptRecords newKey records plaintextByRef (failedRefs ++ [record.ref]))
  | .updateMany newKey ciphertextByRef =>
      some ({ store with rows := updateManyCiphertexts store.rows ciphertextByRef },
        .swapKey newKey ciphertextByRef.length)
  | .swapKey newKey rotatedCount =>
      some ({ store with key := newKey }, .finished (.report rotatedCount []))
  | .finished _ => none

/-- Whether the next step can raise.  The swap of the key is two assignments. -/
def Point.mayRaise : Point Key Ciphertext → Bool
  | .swapKey _ _ => false
  | .finished _ => false
  | _ => true

/-- The steps of a run: an operation is called, an operation goes on, or the next step of an
operation raises. -/
inductive Action (Key : Type) where
  | call (call : Call Key)
  | advance (i : ℕ) (minted : Text) (draw : Text → ℕ)
  | raise (i : ℕ)

variable [DecidableEq Key] [DecidableEq Ciphertext]

/-- The state after an operation has moved on. -/
def State.move (s : State Key Ciphertext) (i : ℕ) (op : Operation Key Ciphertext)
    (store : Store Key Ciphertext) (point : Point Key Ciphertext) : State Key Ciphertext where
  store := store
  operations := s.operations.set i { op with point }
  touched :=
    if store.key = s.store.key ∧ store.rows = s.store.rows then s.touched else i :: s.touched

/-- A step of a run. -/
def next (cipher : Cipher Key Ciphertext) (s : State Key Ciphertext) :
    Action Key → Option (State Key Ciphertext)
  | .call call => some { s with operations := s.operations ++ [⟨call, call.start⟩] }
  | .advance i minted draw => do
      let op ← s.operations[i]?
      let (store, point) ← perform cipher s.store minted draw op.point
      some (s.move i op store point)
  | .raise i => do
      let op ← s.operations[i]?
      if op.point.mayRaise then some (s.move i op s.store (.finished (.raised .storage))) else none

/-- Every stored secret is decrypted under a key to what was last written for it. -/
def Readable (cipher : Cipher Key Ciphertext) (key : Key) (store : Store Key Ciphertext) : Prop :=
  ∀ row ∈ store.rows, cipher.decrypt key row.ciphertext = some (store.written row.ref)

/-- The runs of a store that is in order at first. -/
def secretStore (cipher : Cipher Key Ciphertext) :
    TransitionSystem (State Key Ciphertext) (Action Key) where
  initial s := Readable cipher s.store.key s.store ∧ s.operations = [] ∧ s.touched = []
  step s a t := next cipher s a = some t

/-- All operations have ended. -/
def State.AllFinished (s : State Key Ciphertext) : Prop :=
  ∀ op ∈ s.operations, ∃ outcome, op.point = .finished outcome

/-- The operation is a rotation of the master key that has failed. -/
def Operation.FailedRotation (op : Operation Key Ciphertext) : Prop :=
  (∃ newKey, op.call = .rotateMasterKey newKey)
    ∧ ((∃ e, op.point = .finished (.raised e))
      ∨ ∃ count refs, op.point = .finished (.report count refs) ∧ refs ≠ [])

end Steps

end Secrets
