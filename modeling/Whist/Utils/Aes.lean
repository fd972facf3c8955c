import Mathlib.Tactic

/-! # IV generation of the AES-GCM packet encryption

`gen_iv` keeps its counter in static variables, so every process starts it at zero.  The client and the server of a
session encrypt under one key: a session is a shared key and two counters.  OpenSSL is a parameter.
-/
namespace Whist.Aes

/-- `IV_SIZE`, the AES-GCM default. -/
def ivSize : ℕ := 12

def lsbSize : ℕ := 8

/-- The static counters of `gen_iv`. -/
structure IvCounters where
  lsb : UInt64 := 0
  msb : UInt64 := 0
deriving DecidableEq

def wordByte (word : UInt64) (i : ℕ) : UInt8 :=
  ((word >>> UInt64.ofNat (8*i)) &&& 0xFF).toUInt8

/-- Both loops of `gen_iv` shift `lsb`; `msb` is carried but never written out. -/
def ivBytes (c : IvCounters) : List UInt8 :=
  (List.range ivSize).map (fun i =>
    if i < min lsbSize ivSize then wordByte c.lsb i else wordByte c.lsb (i - lsbSize))

def genIv (c : IvCounters) : List UInt8 × IvCounters :=
  let lsb := c.lsb + 1
  (ivBytes c,⟨lsb,if lsb = 0 then c.msb + 1 else c.msb⟩)

structure AesMetadata where
  iv : List UInt8
  tag : List UInt8
deriving DecidableEq

/-- OpenSSL's AES-128-GCM on plaintext, key and IV; `none` is an SSL error. -/
abbrev AesEncrypt := List UInt8 → List UInt8 → List UInt8 → Option (List UInt8 × List UInt8)

/-- What `encrypt_packet` leaves behind: the metadata and, unless it returned `-1`, the ciphertext. -/
structure EncryptedPacket where
  aesMetadata : AesMetadata
  encryptedData : Option (List UInt8)

def encryptPacket (aesEncrypt : AesEncrypt) (c : IvCounters) (plaintext privateKey : List UInt8) :
    EncryptedPacket × IvCounters :=
  let (iv,c') := genIv c
  match aesEncrypt plaintext privateKey iv with
  | some (encrypted,tag) => (⟨⟨iv,tag⟩,some encrypted⟩,c')
  | none => (⟨⟨iv,[]⟩,none⟩,c')

/-- The two processes that share one private key. -/
inductive Endpoint
  | client
  | server
deriving DecidableEq

structure EncryptCall where
  endpoint : Endpoint
  plaintext : List UInt8

def runSession (aesEncrypt : AesEncrypt) (privateKey : List UInt8) :
    (Endpoint → IvCounters) → List EncryptCall → List EncryptedPacket
  | _, [] => []
  | counters, call :: calls =>
    let (packet,c) := encryptPacket aesEncrypt (counters call.endpoint) call.plaintext privateKey
    packet :: runSession aesEncrypt privateKey (Function.update counters call.endpoint c) calls

def sessionIvs (aesEncrypt : AesEncrypt) (privateKey : List UInt8) (calls : List EncryptCall) :
    List (List UInt8) :=
  (runSession aesEncrypt privateKey (fun _ => {}) calls).map (fun p => p.aesMetadata.iv)

@[simp] theorem encryptPacket_iv (aesEncrypt : AesEncrypt) (c : IvCounters)
    (plaintext privateKey : List UInt8) :
    (encryptPacket aesEncrypt c plaintext privateKey).1.aesMetadata.iv = ivBytes c := by
  simp only [encryptPacket, genIv]
  cases aesEncrypt plaintext privateKey (ivBytes c) <;> rfl

@[simp] theorem encryptPacket_lsb (aesEncrypt : AesEncrypt) (c : IvCounters)
    (plaintext privateKey : List UInt8) :
    (encryptPacket aesEncrypt c plaintext privateKey).2.lsb = c.lsb + 1 := by
  simp only [encryptPacket, genIv]
  cases aesEncrypt plaintext privateKey (ivBytes c) <;> rfl

theorem wordByte_toNat (word : UInt64) {i : ℕ} (hi : i < 8) :
    (wordByte word i).toNat = word.toNat / 2^(8*i) % 256 := by
  have hshift : (UInt64.ofNat (8*i)).toNat % 64 = 8*i := by
    rw [UInt64.toNat_ofNat']
    omega
  have hmask : ∀ x : ℕ, x &&& 255 = x % 256 := fun x => Nat.and_two_pow_sub_one_eq_mod x 8
  simp only [wordByte, UInt64.toNat_toUInt8, UInt64.toNat_and, UInt64.toNat_shiftRight, hshift,
    Nat.shiftRight_eq_div_pow]
  change (word.toNat / 2^(8*i) &&& 255) % 2^8 = _
  rw [hmask]
  omega

theorem ivBytes_injective {c d : IvCounters} (h : ivBytes c = ivBytes d) : c.lsb = d.lsb := by
  have hbyte : ∀ i < 8, c.lsb.toNat / 2^(8*i) % 256 = d.lsb.toNat / 2^(8*i) % 256 := by
    intro i hi
    have hi' : i < ivSize := by simp only [ivSize]; omega
    have he := congrArg (fun l => l[i]?) h
    simp only [ivBytes, List.getElem?_map, List.getElem?_range hi', Option.map_some,
      Option.some.injEq] at he
    rw [if_pos (by simpa [lsbSize,ivSize] using hi), if_pos (by simpa [lsbSize,ivSize] using hi)] at he
    rw [← wordByte_toNat _ hi, ← wordByte_toNat _ hi, he]
  have hc := c.lsb.toNat_lt
  have hd := d.lsb.toNat_lt
  have h0 := hbyte 0 (by omega)
  have h1 := hbyte 1 (by omega)
  have h2 := hbyte 2 (by omega)
  have h3 := hbyte 3 (by omega)
  have h4 := hbyte 4 (by omega)
  have h5 := hbyte 5 (by omega)
  have h6 := hbyte 6 (by omega)
  have h7 := hbyte 7 (by omega)
  apply UInt64.toNat_inj.mp
  simp only [Nat.reduceMul, Nat.reducePow] at h0 h1 h2 h3 h4 h5 h6 h7
  omega

def sessionCounters : (Endpoint → IvCounters) → List Endpoint → List UInt64
  | _, [] => []
  | counters, e :: es =>
    (counters e).lsb :: sessionCounters (Function.update counters e (genIv (counters e)).2) es

theorem sessionCounters_congr {f g : Endpoint → IvCounters} (h : ∀ e, (f e).lsb = (g e).lsb)
    (es : List Endpoint) : sessionCounters f es = sessionCounters g es := by
  induction es generalizing f g with
  | nil => rfl
  | cons e es ih =>
    simp only [sessionCounters, h]
    congr 1
    apply ih
    intro e'
    by_cases he : e' = e
    · subst he
      simp [genIv,h]
    · simp [Function.update_of_ne he,h]

theorem runSession_ivs (aesEncrypt : AesEncrypt) (privateKey : List UInt8)
    (counters : Endpoint → IvCounters) (calls : List EncryptCall) :
    (runSession aesEncrypt privateKey counters calls).map (fun p => p.aesMetadata.iv) =
      (sessionCounters counters (calls.map EncryptCall.endpoint)).map (fun w => ivBytes ⟨w,0⟩) := by
  induction calls generalizing counters with
  | nil => rfl
  | cons call calls ih =>
    simp only [runSession, List.map_cons, sessionCounters, encryptPacket_iv, ih]
    refine congrArg₂ List.cons rfl (congrArg _ (sessionCounters_congr ?_ _))
    intro e
    by_cases he : e = call.endpoint
    · subst he
      simp [genIv]
    · simp [Function.update_of_ne he]

theorem sessionIvs_nodup_iff_counters (aesEncrypt : AesEncrypt) (privateKey : List UInt8)
    (calls : List EncryptCall) :
    (sessionIvs aesEncrypt privateKey calls).Nodup ↔
      (sessionCounters (fun _ => {}) (calls.map EncryptCall.endpoint)).Nodup := by
  rw [sessionIvs, runSession_ivs]
  exact List.nodup_map_iff (fun _ _ h => ivBytes_injective h)

theorem mem_sessionCounters {counters : Endpoint → IvCounters} {e : Endpoint} {es : List Endpoint}
    (h : e ∈ es) : (counters e).lsb ∈ sessionCounters counters es := by
  induction es generalizing counters with
  | nil => simp at h
  | cons a es ih =>
    by_cases ha : e = a
    · subst ha
      exact List.mem_cons_self
    · have hm := @ih (Function.update counters a (genIv (counters a)).2)
        ((List.mem_cons.mp h).resolve_left ha)
      rw [Function.update_of_ne ha] at hm
      exact List.mem_cons_of_mem _ hm

theorem sessionCounters_replicate (counters : Endpoint → IvCounters) (e : Endpoint) (n : ℕ) :
    (sessionCounters counters (List.replicate n e)).map UInt64.toNat =
      (List.range n).map (fun i => ((counters e).lsb.toNat + i) % 2^64) := by
  induction n generalizing counters with
  | zero => rfl
  | succ n ih =>
    rw [List.replicate_succ, sessionCounters, List.map_cons, ih, List.range_succ_eq_map,
      List.map_cons, List.map_map]
    have hlt := (counters e).lsb.toNat_lt
    congr 1
    · omega
    · apply List.map_congr_left
      intro i _
      simp only [Function.update_self, genIv, UInt64.toNat_add, UInt64.reduceToNat,
        Function.comp_apply]
      omega

theorem not_nodup_of_both {es : List Endpoint} (hc : .client ∈ es) (hs : .server ∈ es) :
    ¬(sessionCounters (fun _ => {}) es).Nodup := by
  cases es with
  | nil => simp at hc
  | cons e es =>
    have hother : ∃ e', e' ≠ e ∧ e' ∈ es := by
      cases e with
      | client => exact ⟨.server,by decide,by simpa using hs⟩
      | server => exact ⟨.client,by decide,by simpa using hc⟩
    obtain ⟨e',hne,hmem⟩ := hother
    intro hn
    rw [sessionCounters, List.nodup_cons] at hn
    apply hn.1
    have hm := @mem_sessionCounters (Function.update (fun _ => {}) e (genIv {}).2) _ _ hmem
    rwa [Function.update_of_ne hne] at hm

theorem nodup_replicate_iff (e : Endpoint) (n : ℕ) :
    (sessionCounters (fun _ => {}) (List.replicate n e)).Nodup ↔ n ≤ 2^64 := by
  rw [← List.nodup_map_iff (fun _ _ h => UInt64.toNat_inj.mp h), sessionCounters_replicate]
  constructor
  · intro hn
    by_contra hlt
    have hnd := (List.nodup_map_iff_inj_on List.nodup_range).mp hn
    have h0 := hnd 0 (List.mem_range.mpr (by omega)) (2^64) (List.mem_range.mpr (by omega)) (by simp)
    omega
  · intro hle
    apply (List.nodup_map_iff_inj_on List.nodup_range).mpr
    intro i hi j hj he
    have hi := List.mem_range.mp hi
    have hj := List.mem_range.mp hj
    simp only [UInt64.toNat_zero, Nat.zero_add] at he
    omega

theorem eq_replicate_of_forall {e : Endpoint} {calls : List EncryptCall}
    (h : ∀ c ∈ calls, c.endpoint = e) :
    calls.map EncryptCall.endpoint = List.replicate calls.length e := by
  apply List.eq_replicate_iff.mpr
  exact ⟨by simp,by simpa using h⟩

/-- IVs never repeat under the shared key exactly in the sessions in which only
one of the two processes ever encrypts, and does so at most `2^64` times: the
second word of the IV repeats the first instead of carrying `msb`. -/
theorem sessionIvs_nodup_iff (aesEncrypt : AesEncrypt) (privateKey : List UInt8)
    (calls : List EncryptCall) :
    (sessionIvs aesEncrypt privateKey calls).Nodup ↔
      ((∀ c ∈ calls, c.endpoint = .client) ∨ (∀ c ∈ calls, c.endpoint = .server)) ∧
        calls.length ≤ 2^64 := by
  rw [sessionIvs_nodup_iff_counters]
  by_cases hone : (∀ c ∈ calls, c.endpoint = .client) ∨ (∀ c ∈ calls, c.endpoint = .server)
  · have hrep : ∃ e, calls.map EncryptCall.endpoint = List.replicate calls.length e := by
      rcases hone with h | h
      · exact ⟨_,eq_replicate_of_forall h⟩
      · exact ⟨_,eq_replicate_of_forall h⟩
    obtain ⟨e,he⟩ := hrep
    rw [he, nodup_replicate_iff]
    exact ⟨fun h => ⟨hone,h⟩,And.right⟩
  · refine ⟨fun hn => absurd hn ?_,fun h => absurd h.1 hone⟩
    push Not at hone
    obtain ⟨⟨c,hc,hcs⟩,⟨s,hs,hsc⟩⟩ := hone
    have hserver : Endpoint.server ∈ calls.map EncryptCall.endpoint := by
      refine List.mem_map.mpr ⟨c,hc,?_⟩
      cases h : c.endpoint with
      | client => exact absurd h hcs
      | server => rfl
    have hclient : Endpoint.client ∈ calls.map EncryptCall.endpoint := by
      refine List.mem_map.mpr ⟨s,hs,?_⟩
      cases h : s.endpoint with
      | client => rfl
      | server => exact absurd h hsc
    exact not_nodup_of_both hclient hserver

/-- One packet in each direction already reuses an IV. -/
theorem sessionIvs_clash :
    ¬∀ (aesEncrypt : AesEncrypt) (privateKey : List UInt8) (calls : List EncryptCall),
      (sessionIvs aesEncrypt privateKey calls).Nodup := by
  intro h
  exact absurd (h (fun plaintext _ iv => some (plaintext,iv)) [7] [⟨.client,[1]⟩,⟨.server,[2]⟩])
    (by decide)

end Whist.Aes
