/-
  PipeX.Lib.Aead

  Authenticated encryption with associated data, as far as a protocol on top of
  it can see: two functions, and the idealisations that proofs about
  protocols take as hypotheses.

  * `Cipher.Correct` — opening what was sealed under the same key, nonce and
    associated data gives the plaintext back.
  * `Cipher.Ideal log` — nothing opens that was not sealed: `log` holds the
    calls of the sealing operation that were ever made.
  * `Cipher.Exact log` — what was sealed opens, and nothing else does.
-/
import Mathlib.Data.List.Nodup
import Mathlib.Data.Set.Basic
import PipeX.Lib.BigEndian

namespace Aead

/-- One call of the sealing operation: what it was given and what it returned. -/
structure SealCall (α : Type) where
  algorithm : α
  key : List UInt8
  nonce : List UInt8
  aad : List UInt8
  plaintext : List UInt8
  ciphertext : List UInt8
  tag : List UInt8
deriving DecidableEq, Repr

/-- A family of ciphers with a stream-cipher ciphertext and a tag of fixed length. -/
structure Cipher (α : Type) (tagLength : Nat) where
  encrypt : α → (key nonce aad plaintext : List UInt8) → List UInt8 × List UInt8
  decrypt : α → (key nonce aad ciphertext tag : List UInt8) → Option (List UInt8)
  ciphertext_length : ∀ a k n d p, (encrypt a k n d p).1.length = p.length
  tag_length : ∀ a k n d p, (encrypt a k n d p).2.length = tagLength

namespace Cipher

variable {α : Type} {t : Nat} (c : Cipher α t)

/-- The call that seals `plaintext`. -/
def sealCall (a : α) (key nonce aad plaintext : List UInt8) : SealCall α :=
  { algorithm := a, key := key, nonce := nonce, aad := aad, plaintext := plaintext,
    ciphertext := (c.encrypt a key nonce aad plaintext).1,
    tag := (c.encrypt a key nonce aad plaintext).2 }

/-- Opening undoes sealing. -/
def Correct : Prop :=
  ∀ a k n d p, c.decrypt a k n d (c.encrypt a k n d p).1 (c.encrypt a k n d p).2 = some p

/-- Only the calls in `log` open, and they open to what was sealed. -/
def Ideal (log : Set (SealCall α)) : Prop :=
  ∀ a k n d x tag p, c.decrypt a k n d x tag = some p → ⟨a, k, n, d, p, x, tag⟩ ∈ log

/-- Exactly the calls in `log` open, each to what was sealed. -/
def Exact (log : Set (SealCall α)) : Prop :=
  ∀ a k n d x tag p, c.decrypt a k n d x tag = some p ↔ ⟨a, k, n, d, p, x, tag⟩ ∈ log

/-! ## Two ciphers to evaluate with

Neither keeps a secret.  `checksum` is a `Correct` cipher, and `replay` an
`Ideal` one, so that either hypothesis can be met at a concrete input. -/

/-- A tag of `t` bytes over everything that a tag has to cover. -/
def checksumTag (t : Nat) (covered : List UInt8) : List UInt8 :=
  BigEndian.beBytes t (covered.foldl (fun h b => h * 257 + b.toNat + 1) 0)

def checksum (α : Type) (t : Nat) : Cipher α t where
  encrypt _ key nonce aad plaintext :=
    let ciphertext := plaintext.map (· ^^^ key.headD 0)
    (ciphertext, checksumTag t (key ++ nonce ++ aad ++ ciphertext))
  decrypt _ key nonce aad ciphertext tag :=
    if tag = checksumTag t (key ++ nonce ++ aad ++ ciphertext) then
      some (ciphertext.map (· ^^^ key.headD 0))
    else none
  ciphertext_length _ _ _ _ _ := List.length_map _
  tag_length _ _ _ _ _ := BigEndian.beBytes_length _ _

theorem checksum_correct (α : Type) (t : Nat) : (checksum α t).Correct := by
  intro a k n d p
  have hmask : p.map ((· ^^^ k.headD 0) ∘ (· ^^^ k.headD 0)) = p := by
    conv_rhs => rw [← List.map_id p]
    refine List.map_congr_left fun b _ => ?_
    show b ^^^ k.headD 0 ^^^ k.headD 0 = b
    rw [UInt8.xor_assoc, UInt8.xor_self, UInt8.xor_zero]
  simp only [checksum, if_true, List.map_map, hmask]

/-- Opens the calls it is given, and nothing else. -/
def replay [DecidableEq α] (calls : List (SealCall α)) : Cipher α t where
  encrypt := c.encrypt
  decrypt a key nonce aad ciphertext tag :=
    (calls.find? fun call => decide (call.algorithm = a ∧ call.key = key ∧ call.nonce = nonce ∧
      call.aad = aad ∧ call.ciphertext = ciphertext ∧ call.tag = tag)).map (·.plaintext)
  ciphertext_length := c.ciphertext_length
  tag_length := c.tag_length

theorem replay_ideal [DecidableEq α] (calls : List (SealCall α)) :
    (c.replay calls).Ideal { call | call ∈ calls } := by
  intro a k n d x tag p h
  obtain ⟨call, hfind, rfl⟩ := Option.map_eq_some_iff.mp h
  have hmem := List.mem_of_find?_eq_some hfind
  have hcall := List.find?_some hfind
  simp only [decide_eq_true_eq] at hcall
  obtain ⟨rfl, rfl, rfl, rfl, rfl, rfl⟩ := hcall
  exact hmem

/-- Calls with different nonces are replayed exactly. -/
theorem replay_exact [DecidableEq α] {calls : List (SealCall α)}
    (hnonces : (calls.map (·.nonce)).Nodup) :
    (c.replay calls : Cipher α t).Exact { call | call ∈ calls } := by
  intro a k n d x tag p
  constructor
  · exact fun h => c.replay_ideal calls a k n d x tag p h
  · intro hmem
    have hsome : (calls.find? fun call => decide (call.algorithm = a ∧ call.key = k ∧
        call.nonce = n ∧ call.aad = d ∧ call.ciphertext = x ∧ call.tag = tag)).isSome := by
      rw [List.find?_isSome]
      exact ⟨_, hmem, by simp⟩
    obtain ⟨found, hfound⟩ := Option.isSome_iff_exists.mp hsome
    -- the call that is found has the same nonce, so it is the same call
    have hcall := List.find?_some hfound
    simp only [decide_eq_true_eq] at hcall
    have hsame := List.inj_on_of_nodup_map hnonces (List.mem_of_find?_eq_some hfound) hmem
      hcall.2.2.1
    show Option.map _ _ = some p
    rw [hfound, hsame]
    rfl

end Cipher
end Aead
