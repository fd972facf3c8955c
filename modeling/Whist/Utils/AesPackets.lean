import Whist.Utils.Aes

/-! # Encrypting and decrypting with OpenSSL's contexts

OpenSSL is a parameter: what its functions return, or none where one reports an error.  A failed assertion and an
access outside a buffer have no result.
-/
namespace Whist.Aes

def keySize : ℕ := 16

def tagSize : ℕ := 16

def maxEncryptionSizeIncrease : ℕ := 0

/-- `sizeof(temporary_buf)`, with OpenSSL's `EVP_MAX_BLOCK_LENGTH` of 32. -/
def temporaryBufSize : ℕ := 64 + 32

/-- The functions that the packets go through, on contexts of type `Ctx`. -/
structure Evp (Ctx : Type*) where
  ivLength : ℕ
  keyLength : ℕ
  new : Option Ctx
  encryptInit : Ctx → List UInt8 → List UInt8 → Option Ctx
  encryptUpdate : Ctx → List UInt8 → Option (Ctx × List UInt8)
  encryptFinal : Ctx → Option (Ctx × List UInt8)
  getTag : Ctx → ℕ → Option (List UInt8)
  decryptInit : Ctx → List UInt8 → List UInt8 → Option Ctx
  decryptUpdate : Ctx → List UInt8 → Option (Ctx × List UInt8)
  setTag : Ctx → List UInt8 → Option Ctx
  decryptFinal : Ctx → Option (List UInt8)

variable {Ctx : Type*}

/-- `aes_encrypt` returns the ciphertext and the tag, or none where it returns -1 or an assertion fails. -/
def aesEncrypt (evp : Evp Ctx) : AesEncrypt := fun plaintext key iv =>
  match evp.new with
  | none => none
  | some ctx =>
    if ivSize ≠ evp.ivLength ∨ keySize ≠ evp.keyLength then none
    else
      match evp.encryptInit ctx key iv with
      | none => none
      | some ctx =>
        match evp.encryptUpdate ctx plaintext with
        | none => none
        | some (ctx,written) =>
          -- the buffer has `MAX_ENCRYPTION_SIZE_INCREASE` bytes more than the plaintext, and as many must be left
          if plaintext.length < written.length then none
          else
            match evp.encryptFinal ctx with
            | none => none
            | some (ctx,last) =>
              match evp.getTag ctx tagSize with
              | none => none
              | some tag =>
                if (written ++ last).length = plaintext.length then some (written ++ last,tag) else none

/-- How `aes_decrypt` ends: what it returns, the caller's buffer, and whether the context was created and freed. -/
structure Exit where
  returned : ℤ
  plaintextBuffer : List UInt8
  created : Bool
  freed : Bool

def handleSslError (plaintextBuffer : List UInt8) : Option Exit := some ⟨-1,plaintextBuffer,true,true⟩

def memcpy (buffer : List UInt8) (start : ℕ) (bytes : List UInt8) : Option (List UInt8) :=
  if start + bytes.length ≤ buffer.length then
    some (buffer.take start ++ bytes ++ buffer.drop (start + bytes.length))
  else none

def finishDecryption (evp : Evp Ctx) (ctx : Ctx) (plaintextBuffer : List UInt8) (plaintextLen written : ℕ)
    (tag : List UInt8) : Option Exit :=
  match evp.setTag ctx tag with
  | none => handleSslError plaintextBuffer
  | some ctx =>
    match evp.decryptFinal ctx with
    | none => handleSslError plaintextBuffer
    | some last =>
      if temporaryBufSize < last.length then none
      else if plaintextLen < written + last.length then some ⟨-1,plaintextBuffer,true,false⟩
      else (memcpy plaintextBuffer written last).map fun buffer => ⟨written + last.length,buffer,true,true⟩

/-- The loop over the rest of the ciphertext, and what comes after it.  Every round feeds at least one byte. -/
def decryptLoop (evp : Evp Ctx) (plaintextLen : ℕ) (tag : List UInt8) :
    ℕ → Ctx → List UInt8 → ℕ → List UInt8 → Option Exit
  | _, ctx, plaintextBuffer, written, [] => finishDecryption evp ctx plaintextBuffer plaintextLen written tag
  | 0, _, _, _, _ :: _ => none
  | fuel + 1, ctx, plaintextBuffer, written, rest =>
    let bytesToFeed := min rest.length (temporaryBufSize - maxEncryptionSizeIncrease)
    match evp.decryptUpdate ctx (rest.take bytesToFeed) with
    | none => handleSslError plaintextBuffer
    | some (ctx,temporary) =>
      if temporaryBufSize < temporary.length then none
      else if plaintextLen < written + temporary.length then some ⟨-1,plaintextBuffer,true,false⟩
      else
        match memcpy plaintextBuffer written temporary with
        | none => none
        | some buffer =>
          decryptLoop evp plaintextLen tag fuel ctx buffer (written + temporary.length) (rest.drop bytesToFeed)

def aesDecrypt (evp : Evp Ctx) (plaintextBuffer : List UInt8) (plaintextLen : ℕ) (ciphertext key iv tag : List UInt8) :
    Option Exit :=
  match evp.new with
  | none => some ⟨-1,plaintextBuffer,false,false⟩
  | some ctx =>
    if ivSize ≠ evp.ivLength ∨ keySize ≠ evp.keyLength then none
    else
      match evp.decryptInit ctx key iv with
      | none => handleSslError plaintextBuffer
      | some ctx =>
        -- the subtraction does not go below zero
        let safePlaintextLen := min (plaintextLen - maxEncryptionSizeIncrease) ciphertext.length
        if 0 < safePlaintextLen then
          match evp.decryptUpdate ctx (ciphertext.take safePlaintextLen) with
          | none => handleSslError plaintextBuffer
          | some (ctx,written) =>
            match memcpy plaintextBuffer 0 written with
            | none => none
            | some buffer =>
              decryptLoop evp plaintextLen tag ciphertext.length ctx buffer written.length
                (ciphertext.drop safePlaintextLen)
        else decryptLoop evp plaintextLen tag ciphertext.length ctx plaintextBuffer 0 ciphertext

def decryptPacket (evp : Evp Ctx) (plaintextBuffer : List UInt8) (plaintextBufferLen : ℕ) (aesMetadata : AesMetadata)
    (encryptedData privateKey : List UInt8) : Option Exit :=
  aesDecrypt evp plaintextBuffer plaintextBufferLen encryptedData privateKey aesMetadata.iv aesMetadata.tag

/-- The bytes from `start` on, under the keystream. -/
def cipherAt (keystream : ℕ → UInt8) (start : ℕ) (bytes : List UInt8) : List UInt8 :=
  bytes.mapIdx fun i b => b ^^^ keystream (start + i)

inductive Stage where
  | encrypting
  | encrypted
  | decrypting
  | tagged (tag : List UInt8)

/-- AES-GCM as OpenSSL documents it: a stream cipher, so that every call writes as many bytes as it reads and the
final ones write none, and a tag over what was encrypted.  `holds` tells what a context has gone through. -/
structure StreamAead (evp : Evp Ctx) (keystream : List UInt8 → List UInt8 → ℕ → UInt8)
    (tagOf : List UInt8 → List UInt8 → List UInt8 → List UInt8)
    (holds : Ctx → Stage → List UInt8 → List UInt8 → List UInt8 → Prop) : Prop where
  ivLength : evp.ivLength = ivSize
  keyLength : evp.keyLength = keySize
  tagLength : ∀ key iv ciphertext,(tagOf key iv ciphertext).length = tagSize
  new : ∃ ctx,evp.new = some ctx
  encryptInit : ∀ ctx key iv,key.length = keySize → iv.length = ivSize →
    ∃ ctx',evp.encryptInit ctx key iv = some ctx' ∧ holds ctx' .encrypting key iv []
  encryptUpdate : ∀ ctx key iv done plaintext,holds ctx .encrypting key iv done →
    ∃ ctx',evp.encryptUpdate ctx plaintext = some (ctx',cipherAt (keystream key iv) done.length plaintext) ∧
      holds ctx' .encrypting key iv (done ++ cipherAt (keystream key iv) done.length plaintext)
  encryptFinal : ∀ ctx key iv done,holds ctx .encrypting key iv done →
    ∃ ctx',evp.encryptFinal ctx = some (ctx',[]) ∧ holds ctx' .encrypted key iv done
  getTag : ∀ ctx key iv done,holds ctx .encrypted key iv done → evp.getTag ctx tagSize = some (tagOf key iv done)
  decryptInit : ∀ ctx key iv,key.length = keySize → iv.length = ivSize →
    ∃ ctx',evp.decryptInit ctx key iv = some ctx' ∧ holds ctx' .decrypting key iv []
  decryptUpdate : ∀ ctx key iv done ciphertext,holds ctx .decrypting key iv done →
    ∃ ctx',evp.decryptUpdate ctx ciphertext = some (ctx',cipherAt (keystream key iv) done.length ciphertext) ∧
      holds ctx' .decrypting key iv (done ++ ciphertext)
  setTag : ∀ ctx key iv done tag,tag.length = tagSize → holds ctx .decrypting key iv done →
    ∃ ctx',evp.setTag ctx tag = some ctx' ∧ holds ctx' (.tagged tag) key iv done
  decryptFinal : ∀ ctx key iv done tag,holds ctx (.tagged tag) key iv done →
    evp.decryptFinal ctx = if tag = tagOf key iv done then some [] else none

@[simp] theorem length_cipherAt (keystream : ℕ → UInt8) (start : ℕ) (bytes : List UInt8) :
    (cipherAt keystream start bytes).length = bytes.length := List.length_mapIdx

theorem cipherAt_cipherAt (keystream : ℕ → UInt8) (start : ℕ) (bytes : List UInt8) :
    cipherAt keystream start (cipherAt keystream start bytes) = bytes := by
  unfold cipherAt
  rw [List.mapIdx_mapIdx]
  refine List.ext_getElem (by simp) fun i _ _ => ?_
  simp [UInt8.xor_assoc]

section
variable {evp : Evp Ctx} {keystream : List UInt8 → List UInt8 → ℕ → UInt8}
  {tagOf : List UInt8 → List UInt8 → List UInt8 → List UInt8}
  {holds : Ctx → Stage → List UInt8 → List UInt8 → List UInt8 → Prop}

theorem encryptPacket_spec (h : StreamAead evp keystream tagOf holds) (counters : IvCounters)
    (plaintext : List UInt8) {key : List UInt8} (hkey : key.length = keySize) :
    (encryptPacket (aesEncrypt evp) counters plaintext key).1 =
      ⟨⟨ivBytes counters,tagOf key (ivBytes counters) (cipherAt (keystream key (ivBytes counters)) 0 plaintext)⟩,
        some (cipherAt (keystream key (ivBytes counters)) 0 plaintext)⟩ := by
  have hiv : (ivBytes counters).length = ivSize := by simp [ivBytes]
  obtain ⟨ctx,hnew⟩ := h.new
  obtain ⟨ctx₁,hinit,h₁⟩ := h.encryptInit ctx key _ hkey hiv
  obtain ⟨ctx₂,hupdate,h₂⟩ := h.encryptUpdate ctx₁ key _ [] plaintext h₁
  obtain ⟨ctx₃,hfinal,h₃⟩ := h.encryptFinal ctx₂ key _ _ h₂
  have htag := h.getTag ctx₃ key _ _ h₃
  have hencrypt : aesEncrypt evp plaintext key (ivBytes counters) =
      some (cipherAt (keystream key (ivBytes counters)) 0 plaintext,
        tagOf key (ivBytes counters) (cipherAt (keystream key (ivBytes counters)) 0 plaintext)) := by
    simp only [List.length_nil, List.nil_append] at hupdate htag
    simp [aesEncrypt, hnew, h.ivLength, h.keyLength, hinit, hupdate, hfinal, htag]
  simp [encryptPacket, genIv, hencrypt]

theorem memcpy_nil {buffer : List UInt8} {start : ℕ} (h : start ≤ buffer.length) : memcpy buffer start [] = some buffer := by
  simp [memcpy, h]

theorem finishDecryption_spec (h : StreamAead evp keystream tagOf holds) {ctx : Ctx} {key iv done tag : List UInt8}
    (hctx : holds ctx .decrypting key iv done) (htag : tag.length = tagSize) {buffer : List UInt8}
    {plaintextLen written : ℕ} (hwritten : written ≤ plaintextLen) (hbuffer : plaintextLen ≤ buffer.length) :
    finishDecryption evp ctx buffer plaintextLen written tag =
      some ⟨if tag = tagOf key iv done then written else -1,buffer,true,true⟩ := by
  obtain ⟨ctx₁,hset,h₁⟩ := h.setTag ctx key iv done tag htag hctx
  rw [finishDecryption]
  simp only [hset, h.decryptFinal ctx₁ key iv done tag h₁]
  split_ifs with hauthentic
  · simp [memcpy_nil (hwritten.trans hbuffer), hwritten]
  · rfl

theorem decryptLoop_nil (ctx : Ctx) (buffer tag : List UInt8) (plaintextLen fuel written : ℕ) :
    decryptLoop evp plaintextLen tag fuel ctx buffer written [] =
      finishDecryption evp ctx buffer plaintextLen written tag := by
  cases fuel <;> rfl

theorem decryptLoop_full (h : StreamAead evp keystream tagOf holds) {ctx : Ctx} {key iv done tag : List UInt8}
    (hctx : holds ctx .decrypting key iv done) {buffer rest : List UInt8} {plaintextLen fuel : ℕ} (hrest : rest ≠ [])
    (hfuel : 0 < fuel) : decryptLoop evp plaintextLen tag fuel ctx buffer plaintextLen rest =
      some ⟨-1,buffer,true,false⟩ := by
  obtain ⟨fuel,rfl⟩ := Nat.exists_eq_add_one_of_ne_zero hfuel.ne'
  obtain ⟨b,rest,rfl⟩ := List.exists_cons_of_ne_nil hrest
  obtain ⟨ctx₁,hupdate,-⟩ := h.decryptUpdate ctx key iv done
    ((b :: rest).take (min (b :: rest).length (temporaryBufSize - maxEncryptionSizeIncrease))) hctx
  have hfed : min (b :: rest).length (temporaryBufSize - maxEncryptionSizeIncrease) ≤ temporaryBufSize :=
    (min_le_right _ _).trans (Nat.sub_le _ _)
  have hsome : 0 < min (b :: rest).length (temporaryBufSize - maxEncryptionSizeIncrease) :=
    lt_min (Nat.succ_pos _) (by decide)
  simp only [decryptLoop, hupdate, length_cipherAt, List.length_take]
  rw [if_neg (by omega), if_pos (by omega)]

theorem decryptPacket_of_fits (h : StreamAead evp keystream tagOf holds) {key : List UInt8}
    {metadata : AesMetadata} {buffer encrypted : List UInt8} {bufferLen : ℕ} (hkey : key.length = keySize)
    (hiv : metadata.iv.length = ivSize) (htag : metadata.tag.length = tagSize) (hbuffer : bufferLen ≤ buffer.length)
    (hfits : encrypted.length ≤ bufferLen) :
    decryptPacket evp buffer bufferLen metadata encrypted key =
      some ⟨if metadata.tag = tagOf key metadata.iv encrypted then encrypted.length else -1,
        cipherAt (keystream key metadata.iv) 0 encrypted ++ buffer.drop encrypted.length,true,true⟩ := by
  obtain ⟨ctx,hnew⟩ := h.new
  obtain ⟨ctx₁,hinit,h₁⟩ := h.decryptInit ctx key metadata.iv hkey hiv
  have hsafe : min (bufferLen - maxEncryptionSizeIncrease) encrypted.length = encrypted.length := min_eq_right hfits
  simp only [decryptPacket, aesDecrypt, hnew, h.ivLength, h.keyLength, ne_eq, not_true_eq_false, or_self, if_false,
    hinit, hsafe, List.take_length, List.drop_length]
  rcases Nat.eq_zero_or_pos encrypted.length with hnone | hsome
  · obtain rfl := List.eq_nil_of_length_eq_zero hnone
    rw [List.length_nil, if_neg (lt_irrefl 0), decryptLoop_nil]
    exact finishDecryption_spec h h₁ htag (Nat.zero_le _) hbuffer
  · obtain ⟨ctx₂,hupdate,h₂⟩ := h.decryptUpdate ctx₁ key metadata.iv [] encrypted h₁
    rw [List.length_nil] at hupdate
    have hcopy : memcpy buffer 0 (cipherAt (keystream key metadata.iv) 0 encrypted) =
        some (cipherAt (keystream key metadata.iv) 0 encrypted ++ buffer.drop encrypted.length) := by
      simp [memcpy, hfits.trans hbuffer]
    have hlength : bufferLen ≤ (cipherAt (keystream key metadata.iv) 0 encrypted ++
        buffer.drop encrypted.length).length := by
      rw [List.length_append, length_cipherAt, List.length_drop]
      omega
    rw [if_pos hsome]
    simp only [hupdate, hcopy, length_cipherAt, decryptLoop_nil]
    exact finishDecryption_spec h h₂ htag hfits hlength

theorem decryptPacket_of_not_fits (h : StreamAead evp keystream tagOf holds) {key : List UInt8}
    {metadata : AesMetadata} {buffer encrypted : List UInt8} {bufferLen : ℕ} (hkey : key.length = keySize)
    (hiv : metadata.iv.length = ivSize) (hbuffer : bufferLen ≤ buffer.length)
    (hfits : bufferLen < encrypted.length) :
    ∃ buffer',decryptPacket evp buffer bufferLen metadata encrypted key = some ⟨-1,buffer',true,false⟩ ∧
      buffer'.drop bufferLen = buffer.drop bufferLen := by
  obtain ⟨ctx,hnew⟩ := h.new
  obtain ⟨ctx₁,hinit,h₁⟩ := h.decryptInit ctx key metadata.iv hkey hiv
  have hsafe : min (bufferLen - maxEncryptionSizeIncrease) encrypted.length = bufferLen := min_eq_left hfits.le
  simp only [decryptPacket, aesDecrypt, hnew, h.ivLength, h.keyLength, ne_eq, not_true_eq_false, or_self, if_false,
    hinit, hsafe]
  split_ifs with hsome
  · obtain ⟨ctx₂,hupdate,h₂⟩ := h.decryptUpdate ctx₁ key metadata.iv [] (encrypted.take bufferLen) h₁
    have htake : (encrypted.take bufferLen).length = bufferLen := List.length_take_of_le hfits.le
    have hcopy : memcpy buffer 0 (cipherAt (keystream key metadata.iv) 0 (encrypted.take bufferLen)) =
        some (cipherAt (keystream key metadata.iv) 0 (encrypted.take bufferLen) ++ buffer.drop bufferLen) := by
      simp [memcpy, hfits.le, hbuffer]
    have hrest : encrypted.drop bufferLen ≠ [] := by
      rw [ne_eq, List.drop_eq_nil_iff]
      omega
    rw [List.length_nil] at hupdate
    simp only [hupdate, hcopy, length_cipherAt, htake]
    refine ⟨_,decryptLoop_full h h₂ hrest (by omega),?_⟩
    rw [List.drop_left' (by rw [length_cipherAt, htake])]
  · obtain rfl : bufferLen = 0 := by omega
    refine ⟨_,decryptLoop_full h h₁ ?_ hfits,rfl⟩
    exact List.ne_nil_of_length_pos hfits

/-- What is asked of a call of `decrypt_packet`: it returns -1 exactly when the buffer is too small or the tag is
wrong, it gives back what `encrypt_packet` was given, it writes nothing behind the capacity and leaves no context. -/
structure DecryptsRight (evp : Evp Ctx) (tagOf : List UInt8 → List UInt8 → List UInt8 → List UInt8)
    (buffer : List UInt8) (bufferLen : ℕ) (metadata : AesMetadata) (encrypted key : List UInt8) (exit : Exit) : Prop where
  fails : exit.returned = -1 ↔ bufferLen < encrypted.length ∨ metadata.tag ≠ tagOf key metadata.iv encrypted
  inverts : ∀ counters plaintext,(encryptPacket (aesEncrypt evp) counters plaintext key).1 = ⟨metadata,some encrypted⟩ →
    plaintext.length ≤ bufferLen →
    exit.returned = plaintext.length ∧ exit.plaintextBuffer.take plaintext.length = plaintext
  bounded : exit.plaintextBuffer.drop bufferLen = buffer.drop bufferLen
  freed : exit.created = true → exit.freed = true

/-- `decrypt_packet` does what is asked of it for exactly the packets that fit in the buffer: the context of another
is not freed. -/
theorem decryptPacket_right_iff (h : StreamAead evp keystream tagOf holds) {key : List UInt8} {metadata : AesMetadata}
    {buffer encrypted : List UInt8} {bufferLen : ℕ} (hkey : key.length = keySize)
    (hiv : metadata.iv.length = ivSize) (htag : metadata.tag.length = tagSize)
    (hbuffer : bufferLen ≤ buffer.length) :
    (∃ exit,decryptPacket evp buffer bufferLen metadata encrypted key = some exit ∧
      DecryptsRight evp tagOf buffer bufferLen metadata encrypted key exit) ↔ encrypted.length ≤ bufferLen := by
  constructor
  · rintro ⟨exit,hexit,hright⟩
    by_contra hfits
    obtain ⟨buffer',hdecrypt,-⟩ := decryptPacket_of_not_fits h hkey hiv hbuffer (not_le.mp hfits)
    obtain rfl := Option.some.inj (hexit.symm.trans hdecrypt)
    exact Bool.false_ne_true (hright.freed rfl)
  · intro hfits
    refine ⟨_,decryptPacket_of_fits h hkey hiv htag hbuffer hfits,?_⟩
    constructor
    case fails =>
      dsimp only
      by_cases hauthentic : metadata.tag = tagOf key metadata.iv encrypted
      · rw [if_pos hauthentic]
        constructor
        · intro hreturned
          omega
        · rintro (hlong | hforged)
          · omega
          · exact (hforged hauthentic).elim
      · rw [if_neg hauthentic]
        exact ⟨fun _ => Or.inr hauthentic,fun _ => rfl⟩
    case inverts =>
      intro counters plaintext hencrypt _
      rw [encryptPacket_spec h counters plaintext hkey, EncryptedPacket.mk.injEq, Option.some.injEq] at hencrypt
      obtain ⟨rfl,rfl⟩ := hencrypt
      dsimp only
      rw [if_pos rfl, length_cipherAt, cipherAt_cipherAt]
      exact ⟨rfl,List.take_left' rfl⟩
    case bounded =>
      rw [List.drop_append, length_cipherAt, List.drop_of_length_le (by rwa [length_cipherAt]), List.nil_append,
        List.drop_drop]
      congr 1
      omega
    case freed => exact fun _ => rfl

end

def vectorBytes : List UInt8 :=
  [0x03,0x88,0xda,0xce,0x60,0xb6,0xa3,0x92,0xf3,0x28,0xc2,0xb9,0x71,0xb2,0xfe,0x78]

def vectorTagBytes : List UInt8 :=
  [0xab,0x6e,0x47,0xd4,0x2c,0xec,0x13,0xbd,0xf5,0x3a,0x67,0xb2,0x12,0x57,0xbd,0xdf]

def vectorTag (_key _iv ciphertext : List UInt8) : List UInt8 :=
  if ciphertext = vectorBytes then vectorTagBytes else List.replicate tagSize 0

structure VectorCtx where
  key : List UInt8
  iv : List UInt8
  done : List UInt8
  tag : List UInt8

def vectorKeystream (_key _iv : List UInt8) (i : ℕ) : UInt8 := vectorBytes.getD i 0

/-- Contexts that encrypt and decrypt as AES-GCM does with the first IV under the key of zeros. -/
def vectorEvp : Evp VectorCtx where
  ivLength := 12
  keyLength := 16
  new := some ⟨[],[],[],[]⟩
  encryptInit _ key iv := some ⟨key,iv,[],[]⟩
  encryptUpdate ctx plaintext :=
    let out := cipherAt (vectorKeystream ctx.key ctx.iv) ctx.done.length plaintext
    some ({ ctx with done := ctx.done ++ out },out)
  encryptFinal ctx := some (ctx,[])
  getTag ctx _ := some (vectorTag ctx.key ctx.iv ctx.done)
  decryptInit _ key iv := some ⟨key,iv,[],[]⟩
  decryptUpdate ctx ciphertext :=
    some ({ ctx with done := ctx.done ++ ciphertext },
      cipherAt (vectorKeystream ctx.key ctx.iv) ctx.done.length ciphertext)
  setTag ctx tag := some { ctx with tag := tag }
  decryptFinal ctx := if ctx.tag = vectorTag ctx.key ctx.iv ctx.done then some [] else none

def vectorHolds (ctx : VectorCtx) (stage : Stage) (key iv done : List UInt8) : Prop :=
  ctx.key = key ∧ ctx.iv = iv ∧ ctx.done = done ∧ ∀ tag,stage = .tagged tag → ctx.tag = tag

theorem vector_streamAead : StreamAead vectorEvp vectorKeystream vectorTag vectorHolds where
  ivLength := rfl
  keyLength := rfl
  tagLength key iv ciphertext := by
    unfold vectorTag
    split_ifs
    · rfl
    · exact List.length_replicate
  new := ⟨_,rfl⟩
  encryptInit ctx key iv _ _ := ⟨_,rfl,rfl,rfl,rfl,by simp⟩
  encryptUpdate ctx key iv done plaintext := by
    rintro ⟨rfl,rfl,rfl,-⟩
    exact ⟨_,rfl,rfl,rfl,rfl,by simp⟩
  encryptFinal ctx key iv done := by
    rintro ⟨rfl,rfl,rfl,-⟩
    exact ⟨_,rfl,rfl,rfl,rfl,by simp⟩
  getTag ctx key iv done := by
    rintro ⟨rfl,rfl,rfl,-⟩
    rfl
  decryptInit ctx key iv _ _ := ⟨_,rfl,rfl,rfl,rfl,by simp⟩
  decryptUpdate ctx key iv done ciphertext := by
    rintro ⟨rfl,rfl,rfl,-⟩
    exact ⟨_,rfl,rfl,rfl,rfl,by simp⟩
  setTag ctx key iv done tag _ := by
    rintro ⟨rfl,rfl,rfl,-⟩
    exact ⟨_,rfl,rfl,rfl,rfl,fun tag' h => Stage.tagged.inj h⟩
  decryptFinal ctx key iv done tag := by
    rintro ⟨rfl,rfl,rfl,htag⟩
    obtain rfl := htag tag rfl
    rfl

theorem decryptPacket_right_iff_vector :
    (∃ exit,decryptPacket vectorEvp (List.replicate 20 7) 16 ⟨List.replicate 12 0,vectorTagBytes⟩ vectorBytes
        (List.replicate 16 0) = some exit ∧
      DecryptsRight vectorEvp vectorTag (List.replicate 20 7) 16 ⟨List.replicate 12 0,vectorTagBytes⟩ vectorBytes
        (List.replicate 16 0) exit) ↔ vectorBytes.length ≤ 16 :=
  decryptPacket_right_iff vector_streamAead rfl rfl rfl (by decide)

/-- The context of a packet of 16 bytes is not freed where the buffer has 15. -/
theorem decryptPacket_leaks : ¬ ∀ (buffer : List UInt8) (bufferLen : ℕ) (metadata : AesMetadata)
    (encrypted key : List UInt8),key.length = keySize → metadata.iv.length = ivSize →
    metadata.tag.length = tagSize → bufferLen ≤ buffer.length →
    ∃ exit,decryptPacket vectorEvp buffer bufferLen metadata encrypted key = some exit ∧
      DecryptsRight vectorEvp vectorTag buffer bufferLen metadata encrypted key exit := by
  intro h
  obtain ⟨exit,hexit,hright⟩ := h (List.replicate 15 7) 15 ⟨List.replicate 12 0,vectorTagBytes⟩ vectorBytes
    (List.replicate 16 0) rfl rfl rfl le_rfl
  have hdecrypt : (decryptPacket vectorEvp (List.replicate 15 7) 15 ⟨List.replicate 12 0,vectorTagBytes⟩ vectorBytes
      (List.replicate 16 0)).map (fun exit => (exit.created,exit.freed)) = some (true,false) := by decide
  rw [hexit, Option.map_some, Option.some.injEq, Prod.mk.injEq] at hdecrypt
  exact Bool.false_ne_true (hdecrypt.2.symm.trans (hright.freed hdecrypt.1))

end Whist.Aes
