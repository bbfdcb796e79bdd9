import Vykar.Snapshot.BlobCache

/-!
Packing repository objects (`repo/format.rs`), and what the envelope binds them to.

The streaming packer lets its caller write the plaintext behind a gap for the nonce, encrypts it in
place and fills the gap.  The additional data begin with the type and end with the context, with a
fixed text in between, so they determine both.
-/

namespace Vykar.Snapshot

open Pack

abbrev Nonce := Vector UInt8 12

/-- A cipher with a nonce and additional data; its tag stands behind the ciphertext. -/
structure Cipher where
  encryptInPlaceDetached : Bytes → Bytes → Bytes → Bytes × Vector UInt8 16
  decrypt : Bytes → Bytes → Bytes → Option Bytes

/-- The engine that encrypts with a cipher, or else the plaintext engine. -/
abbrev CryptoEngine := Option Cipher

/-- `CryptoEngine::encrypt` with the nonce that was drawn. -/
def CryptoEngine.encrypt (engine : CryptoEngine) (nonce : Nonce) (plaintext aad : Bytes) : Bytes :=
  match engine with
  | some cipher =>
    let sealed := cipher.encryptInPlaceDetached nonce.toList plaintext aad
    nonce.toList ++ (sealed.1 ++ sealed.2.toList)
  | none => plaintext

def CryptoEngine.decrypt (engine : CryptoEngine) (data aad : Bytes) : Except VykarError Bytes :=
  match engine with
  | some cipher =>
    if data.length < 12 + 16 then .error .decryptionFailed
    else (cipher.decrypt (data.take 12) (data.drop 12) aad).elim (.error .decryptionFailed) .ok
  | none => .ok data

def ObjectType.toU8 : ObjectType → UInt8
  | config => 0
  | manifest => 1
  | snapshotMeta => 2
  | chunkData => 3
  | chunkIndex => 4
  | packHeader => 5
  | fileCache => 6
  | pendingIndex => 7
  | snapshotCache => 8

theorem ObjectType.fromU8_toU8 (objType : ObjectType) : fromU8 objType.toU8 = .ok objType := by
  cases objType <;> rfl

/-- `pack_object_with_context` -/
def packObject (engine : CryptoEngine) (nonce : Nonce) (objType : ObjectType)
    (context plaintext : Bytes) : Bytes :=
  objType.toU8 :: engine.encrypt nonce plaintext (contextualAad objType.toU8 context)

/-- `pack_object_streaming_with_context` -/
def packObjectStreaming (engine : CryptoEngine) (nonce : Nonce) (objType : ObjectType)
    (context : Bytes) (writePlaintext : Bytes → Except VykarError Bytes) :
    Except VykarError Bytes :=
  match engine with
  | some cipher => do
      let buf ← writePlaintext (objType.toU8 :: List.replicate 12 0)
      let sealed := cipher.encryptInPlaceDetached nonce.toList (buf.drop (1 + 12))
        (contextualAad objType.toU8 context)
      .ok (buf.take 1 ++ nonce.toList ++ sealed.1 ++ sealed.2.toList)
  | none => writePlaintext [objType.toU8]

/-- The cipher returns the plaintext for the additional data it was encrypted with, and nothing
for any others. -/
def Cipher.Ideal (cipher : Cipher) (nonce : Nonce) (plaintext aad : Bytes) : Prop :=
  let sealed := cipher.encryptInPlaceDetached nonce.toList plaintext aad
  ∀ other, cipher.decrypt nonce.toList (sealed.1 ++ sealed.2.toList) other =
    if other = aad then some plaintext else none

theorem contextualAad_injective (tag : UInt8) {context other : Bytes}
    (same : contextualAad tag context = contextualAad tag other) : context = other :=
  List.append_cancel_left (List.cons.inj same).2

theorem packObjectStreaming_eq (engine : CryptoEngine) (nonce : Nonce) (objType : ObjectType)
    (context : Bytes) {payload : Bytes} {writePlaintext : Bytes → Except VykarError Bytes}
    (appends : ∀ buf, writePlaintext buf = .ok (buf ++ payload)) :
    packObjectStreaming engine nonce objType context writePlaintext =
      .ok (packObject engine nonce objType context payload) := by
  cases engine with
  | none => exact appends _
  | some cipher =>
    rw [packObjectStreaming, appends]
    simp [packObject, CryptoEngine.encrypt, Except.bind, bind]

theorem Cipher.Ideal.decrypt_encrypt {cipher : Cipher} {nonce : Nonce} {plaintext aad : Bytes}
    (ideal : cipher.Ideal nonce plaintext aad) (other : Bytes) :
    CryptoEngine.decrypt (some cipher) (CryptoEngine.encrypt (some cipher) nonce plaintext aad)
      other = if other = aad then .ok plaintext else .error .decryptionFailed := by
  have nonceLength := nonce.length_toList
  have opened := ideal other
  unfold CryptoEngine.decrypt CryptoEngine.encrypt
  dsimp only at opened ⊢
  rw [if_neg (by simp only [List.length_append, Vector.length_toList]; omega),
    List.take_left' nonceLength, List.drop_left' nonceLength, opened]
  split <;> rfl

theorem Cipher.Ideal.unpackObject (external : External) {cipher : Cipher} {nonce : Nonce}
    {objType : ObjectType} {context payload : Bytes} (expected : ObjectType) (other : Bytes)
    (ideal : cipher.Ideal nonce payload (contextualAad objType.toU8 context)) :
    ({ external with decrypt := CryptoEngine.decrypt (some cipher) }).unpackObject expected other
        (packObject (some cipher) nonce objType context payload) =
      if other = context then
        if objType = expected then .ok payload
        else .error (.invalidFormat
          s!"unexpected object type: expected {expected}, got {objType}")
      else .error .decryptionFailed := by
  rw [packObject, External.unpackObject, ObjectType.fromU8_toU8]
  simp only [ideal.decrypt_encrypt, bind, Except.bind]
  by_cases same : other = context
  · rw [if_pos (congrArg _ same), if_pos same]
  · rw [if_neg fun equal => same (contextualAad_injective _ equal), if_neg same]

/-- Both packers produce the same object, and it is accepted as what it was packed as only. -/
theorem envelope_binds_identity (external : External) (cipher : Cipher) (nonce : Nonce)
    (objType expected : ObjectType) (context other payload : Bytes)
    (writePlaintext : Bytes → Except VykarError Bytes)
    (appends : ∀ buf, writePlaintext buf = .ok (buf ++ payload))
    (ideal : cipher.Ideal nonce payload (contextualAad objType.toU8 context)) :
    ∃ object, packObjectStreaming (some cipher) nonce objType context writePlaintext = .ok object ∧
      packObject (some cipher) nonce objType context payload = object ∧
      let reader := { external with decrypt := CryptoEngine.decrypt (some cipher) }
      reader.unpackObject objType context object = .ok payload ∧
        ((∃ plaintext, reader.unpackObject expected other object = .ok plaintext) ↔
          objType = expected ∧ context = other) := by
  refine ⟨_, packObjectStreaming_eq (some cipher) nonce objType context appends, rfl, ?_, ?_⟩
  · rw [ideal.unpackObject, if_pos rfl, if_pos rfl]
  · rw [ideal.unpackObject]
    constructor
    · rintro ⟨plaintext, unpacked⟩
      split at unpacked
      next same =>
        split at unpacked
        next expects => exact ⟨expects, same.symm⟩
        next => cases unpacked
      next => cases unpacked
    · rintro ⟨rfl, rfl⟩
      exact ⟨payload, (if_pos rfl).trans (if_pos rfl)⟩

/-- A cipher that authenticates the data of one chunk. -/
def oneChunkCipher : Cipher where
  encryptInPlaceDetached _ plaintext _ := (plaintext.map (255 - ·), Vector.replicate 16 0)
  decrypt _ message aad :=
    if aad = contextualAad 3 [1] then some ((message.take (message.length - 16)).map (255 - ·))
    else none

theorem envelope_binds_identity_chunk :
    ∃ object, packObjectStreaming (some oneChunkCipher) (Vector.replicate 12 0) .chunkData [1]
        (fun buf => .ok (buf ++ [7])) = .ok object ∧
      let reader :=
        { External.bare with decrypt := CryptoEngine.decrypt (some oneChunkCipher) }
      reader.unpackObject .chunkData [1] object = .ok [7] ∧
        ¬∃ plaintext, reader.unpackObject .snapshotMeta [1] object = .ok plaintext := by
  obtain ⟨object, streamed, -, unpacked, binds⟩ := envelope_binds_identity External.bare
    oneChunkCipher (Vector.replicate 12 0) .chunkData .snapshotMeta [1] [1] [7] _ (fun _ => rfl)
    fun _ => rfl
  refine ⟨object, streamed, unpacked, fun accepted => ?_⟩
  cases (binds.mp accepted).1

end Vykar.Snapshot
