import Mathlib.Tactic

/-! # Copying and trimming strings

A buffer is the list of its bytes, and its string ends at the first NUL.  An access outside a buffer
has no result.
-/
namespace Whist.CString

def cString (buffer : List UInt8) : List UInt8 := buffer.takeWhile (fun b => b ≠ 0)

def copyLoop (source : List UInt8) : ℕ → ℕ → List UInt8 → Option (List UInt8 × ℕ)
  | 0, i, destination => some (destination,i)
  | n + 1, i, destination =>
    match source[i]? with
    | none => none
    | some b =>
      if b = 0 then some (destination,i)
      else if i < destination.length then copyLoop source n (i + 1) (destination.set i b)
      else none

/-- `destination` after `safe_strncpy`, and whether all of the source was copied. -/
def safeStrncpy (destination source : List UInt8) (num : ℕ) : Option (List UInt8 × Bool) :=
  if num = 0 then some (destination,false)
  else
    match copyLoop source (num - 1) 0 destination with
    | none => none
    | some (copied,i) =>
      if i < copied.length then (source[i]?).map fun b => (copied.set i 0,b = 0)
      else none

def strlen (buffer : List UInt8) : Option ℕ :=
  if 0 ∈ buffer then some (cString buffer).length else none

/-- `osIsWin32` is `OS_IS(OS_WIN32)`. -/
def trimUtf8String (osIsWin32 : Bool) (str : List UInt8) : Option (List UInt8) :=
  if osIsWin32 then some str
  else (strlen str).map fun len =>
    -- does a 4-byte sequence start at `len - 3`?
    if 3 ≤ len ∧ str.getD (len - 3) 0 &&& 0xf0 = 0xf0 then str.set (len - 3) 0
    -- a sequence of 3 or more bytes at `len - 2`, or of 2 or more at `len - 1`?
    else if 2 ≤ len ∧ str.getD (len - 2) 0 &&& 0xe0 = 0xe0 then str.set (len - 2) 0
    else if 1 ≤ len ∧ str.getD (len - 1) 0 &&& 0xc0 = 0xc0 then str.set (len - 1) 0
    else str

def leadSize (b : UInt8) : ℕ :=
  if b &&& 0xf0 = 0xf0 then 4 else if b &&& 0xe0 = 0xe0 then 3 else if b &&& 0xc0 = 0xc0 then 2 else 1

theorem four_le_leadSize (b : UInt8) : 4 ≤ leadSize b ↔ b &&& 0xf0 = 0xf0 := by
  obtain ⟨b⟩ := b
  revert b
  decide +kernel

theorem three_le_leadSize (b : UInt8) : 3 ≤ leadSize b ↔ b &&& 0xe0 = 0xe0 := by
  obtain ⟨b⟩ := b
  revert b
  decide +kernel

theorem two_le_leadSize (b : UInt8) : 2 ≤ leadSize b ↔ b &&& 0xc0 = 0xc0 := by
  obtain ⟨b⟩ := b
  revert b
  decide +kernel

def IsSequence (l : List UInt8) : Prop :=
  ∃ b rest, l = b :: rest ∧ leadSize b = l.length ∧ ∀ t ∈ rest, leadSize t = 1

theorem isSequence_utf8EncodeChar (c : Char) : IsSequence (String.utf8EncodeChar c) := by
  have hascii : ∀ n ≤ 0x7f, leadSize (UInt8.ofNat n) = 1 := by decide +kernel
  have htail : ∀ n < 0x40, leadSize (UInt8.ofNat (n + 0x80)) = 1 := by decide +kernel
  have htwo : ∀ n < 0x20, leadSize (UInt8.ofNat (n + 0xc0)) = 2 := by decide +kernel
  have hthree : ∀ n < 0x10, leadSize (UInt8.ofNat (n + 0xe0)) = 3 := by decide +kernel
  have hfour : ∀ n < 0x08, leadSize (UInt8.ofNat (n + 0xf0)) = 4 := by decide +kernel
  have hmod : ∀ n, leadSize (UInt8.ofNat (n % 0x40 + 0x80)) = 1 :=
    fun n => htail _ (Nat.mod_lt _ (by norm_num))
  fun_cases String.utf8EncodeChar c with
  | case1 v h => exact ⟨_,_,rfl,hascii v h,List.forall_mem_nil _⟩
  | case2 v _ h =>
    refine ⟨_,_,rfl,htwo _ (Nat.mod_lt _ (by norm_num)),?_⟩
    exact List.forall_mem_cons.mpr ⟨hmod _,List.forall_mem_nil _⟩
  | case3 v _ _ h =>
    refine ⟨_,_,rfl,hthree _ (Nat.mod_lt _ (by norm_num)),?_⟩
    exact List.forall_mem_cons.mpr ⟨hmod _,List.forall_mem_cons.mpr ⟨hmod _,List.forall_mem_nil _⟩⟩
  | case4 v =>
    refine ⟨_,_,rfl,hfour _ (Nat.mod_lt _ (by norm_num)),?_⟩
    exact List.forall_mem_cons.mpr
      ⟨hmod _,List.forall_mem_cons.mpr ⟨hmod _,List.forall_mem_cons.mpr ⟨hmod _,List.forall_mem_nil _⟩⟩⟩

def Complete (l : List UInt8) : Prop := ∀ i b, l[i]? = some b → i + leadSize b ≤ l.length

def IsCut (l : List UInt8) : Prop :=
  ∃ b rest, l = b :: rest ∧ l.length < leadSize b ∧ ∀ t ∈ rest, leadSize t = 1

theorem IsSequence.complete {l : List UInt8} (h : IsSequence l) : Complete l := by
  obtain ⟨b,rest,rfl,hlead,htails⟩ := h
  intro i t ht
  cases i with
  | zero =>
    obtain rfl : b = t := Option.some.inj ht
    omega
  | succ i =>
    rw [List.getElem?_cons_succ] at ht
    have hi := (List.getElem?_eq_some_iff.mp ht).1
    rw [htails t (List.mem_of_getElem? ht), List.length_cons]
    omega

theorem Complete.append {l l' : List UInt8} (h : Complete l) (h' : Complete l') : Complete (l ++ l') := by
  intro i b hb
  rw [List.getElem?_append] at hb
  rw [List.length_append]
  split_ifs at hb with hi
  · have := h i b hb
    omega
  · have := h' _ b hb
    omega

def encode (cs : List Char) : List UInt8 := cs.flatMap String.utf8EncodeChar

theorem encode_cons (c : Char) (cs : List Char) : encode (c :: cs) = String.utf8EncodeChar c ++ encode cs := rfl

theorem complete_encode (cs : List Char) : Complete (encode cs) := by
  induction cs with
  | nil =>
    intro i b hb
    simp [encode] at hb
  | cons c cs ih => exact (isSequence_utf8EncodeChar c).complete.append ih

theorem zero_notMem_utf8EncodeChar {c : Char} (h : c ≠ Char.ofNat 0) : 0 ∉ String.utf8EncodeChar c := by
  have hascii : ∀ n ≤ 0x7f, 0 = UInt8.ofNat n → n = 0 := by decide +kernel
  have htail : ∀ n < 0x40, 0 ≠ UInt8.ofNat (n + 0x80) := by decide +kernel
  have htwo : ∀ n < 0x20, 0 ≠ UInt8.ofNat (n + 0xc0) := by decide +kernel
  have hthree : ∀ n < 0x10, 0 ≠ UInt8.ofNat (n + 0xe0) := by decide +kernel
  have hfour : ∀ n < 0x08, 0 ≠ UInt8.ofNat (n + 0xf0) := by decide +kernel
  have hmod : ∀ n, 0 ≠ UInt8.ofNat (n % 0x40 + 0x80) := fun n => htail _ (Nat.mod_lt _ (by norm_num))
  fun_cases String.utf8EncodeChar c with
  | case1 v hv =>
    intro h0
    have hc : c.toNat = 0 := hascii v hv (List.mem_singleton.mp h0)
    exact h (hc ▸ (Char.ofNat_toNat c).symm)
  | case2 v _ hv =>
    simp only [List.mem_cons, List.not_mem_nil, or_false, not_or]
    exact ⟨htwo _ (Nat.mod_lt _ (by norm_num)),hmod _⟩
  | case3 v _ _ hv =>
    simp only [List.mem_cons, List.not_mem_nil, or_false, not_or]
    exact ⟨hthree _ (Nat.mod_lt _ (by norm_num)),hmod _,hmod _⟩
  | case4 v =>
    simp only [List.mem_cons, List.not_mem_nil, or_false, not_or]
    exact ⟨hfour _ (Nat.mod_lt _ (by norm_num)),hmod _,hmod _,hmod _⟩

theorem zero_notMem_encode {cs : List Char} (h : Char.ofNat 0 ∉ cs) : 0 ∉ encode cs := by
  intro hz
  obtain ⟨c,hc,hzc⟩ := List.mem_flatMap.mp hz
  exact zero_notMem_utf8EncodeChar (fun h0 => h (h0 ▸ hc)) hzc

/-- As many characters as fit in `n` bytes. -/
def fitting : ℕ → List Char → List Char
  | _, [] => []
  | n, c :: cs => if c.utf8Size ≤ n then c :: fitting (n - c.utf8Size) cs else []

theorem fitting_isPrefix (n : ℕ) (cs : List Char) : fitting n cs <+: cs := by
  induction cs generalizing n with
  | nil => exact List.prefix_rfl
  | cons c cs ih =>
    unfold fitting
    split_ifs
    · exact (List.cons_prefix_cons).mpr ⟨rfl,ih _⟩
    · exact List.nil_prefix

theorem length_encode_fitting (n : ℕ) (cs : List Char) : (encode (fitting n cs)).length ≤ n := by
  induction cs generalizing n with
  | nil => exact Nat.zero_le n
  | cons c cs ih =>
    unfold fitting
    split_ifs with hc
    · have := ih (n - c.utf8Size)
      rw [encode_cons, List.length_append, String.length_utf8EncodeChar]
      omega
    · exact Nat.zero_le n

theorem prefix_fitting {n : ℕ} {cs q : List Char} (hq : q <+: cs) (hn : (encode q).length ≤ n) :
    q <+: fitting n cs := by
  induction cs generalizing n q with
  | nil => exact hq
  | cons c cs ih =>
    cases q with
    | nil => exact List.nil_prefix
    | cons d q =>
      obtain ⟨rfl,htail⟩ := List.cons_prefix_cons.mp hq
      rw [encode_cons, List.length_append, String.length_utf8EncodeChar] at hn
      unfold fitting
      rw [if_pos (by omega)]
      exact List.cons_prefix_cons.mpr ⟨rfl,ih htail (by omega)⟩

/-- What is left of a string that is cut off after `n` bytes: the characters that fit, and the start of the
next one. -/
theorem take_encode (n : ℕ) (cs : List Char) :
    ∃ part, (encode cs).take n = encode (fitting n cs) ++ part ∧ (part = [] ∨ IsCut part) := by
  induction cs generalizing n with
  | nil => exact ⟨[],by simp [encode, fitting],Or.inl rfl⟩
  | cons c cs ih =>
    unfold fitting
    have hlength := String.length_utf8EncodeChar c
    split_ifs with hc
    · obtain ⟨part,htake,hpart⟩ := ih (n - c.utf8Size)
      refine ⟨part,?_,hpart⟩
      rw [encode_cons, encode_cons, List.take_append, List.take_of_length_le (by omega), hlength, htake,
        List.append_assoc]
    · refine ⟨(String.utf8EncodeChar c).take n,?_,?_⟩
      · rw [encode_cons, List.take_append_of_le_length (by omega)]
        rfl
      · cases n with
        | zero => exact Or.inl rfl
        | succ n =>
          obtain ⟨b,rest,hseq,hlead,htails⟩ := isSequence_utf8EncodeChar c
          refine Or.inr ⟨b,rest.take n,by rw [hseq, List.take_succ_cons],?_,?_⟩
          · rw [List.length_take, hlead]
            omega
          · exact fun t ht => htails t (List.mem_of_mem_take ht)

theorem getElem?_string {l : List UInt8} {i : ℕ} (after : List UInt8) (h : i < l.length) :
    (l ++ 0 :: after)[i]? = some l[i] := by
  rw [List.getElem?_append_left h, List.getElem?_eq_getElem h]

theorem copyLoop_spec {l : List UInt8} (h0 : 0 ∉ l) (after : List UInt8) (n : ℕ) {i : ℕ} {d : List UInt8}
    (hi : i ≤ l.length) (hd : n ≤ d.length) :
    ∃ j d',copyLoop (l ++ 0 :: after) n i (l.take i ++ d) = some (l.take j ++ d',j) ∧
      j = min (i + n) l.length ∧ d'.length + j = d.length + i := by
  induction n generalizing i d with
  | zero => exact ⟨i,d,rfl,by omega,rfl⟩
  | succ n ih =>
    unfold copyLoop
    rcases Nat.lt_or_ge i l.length with hlt | hge
    · rw [getElem?_string after hlt]
      have hb : l[i] ≠ 0 := fun h => h0 (h ▸ List.getElem_mem hlt)
      have hroom : i < (l.take i ++ d).length := by
        rw [List.length_append, List.length_take]
        omega
      have hset : (l.take i ++ d).set i l[i] = l.take (i + 1) ++ d.tail := by
        obtain ⟨x,d,rfl⟩ := List.exists_cons_of_length_pos (show 0 < d.length by omega)
        have hlen : (l.take i).length = i := List.length_take_of_le hi
        rw [List.set_append_right _ _ hlen.le, hlen, Nat.sub_self, ← List.take_append_getElem hlt, List.append_assoc]
        rfl
      obtain ⟨j,d',hcopy,hj,hlen⟩ := ih (i := i + 1) (d := d.tail) hlt (by rw [List.length_tail]; omega)
      refine ⟨j,d',?_,by omega,?_⟩
      · simp only [hb, if_false, if_pos hroom, hset, hcopy]
      · rw [List.length_tail] at hlen
        omega
    · obtain rfl : i = l.length := by omega
      rw [List.getElem?_append_right le_rfl, Nat.sub_self]
      exact ⟨l.length,d,rfl,by omega,rfl⟩

/-- As much of the string as fits before the last byte, and a NUL. -/
theorem safeStrncpy_spec {l : List UInt8} (h0 : 0 ∉ l) (after : List UInt8) {num : ℕ} {d : List UInt8}
    (hnum : 1 ≤ num) (hd : num ≤ d.length) :
    ∃ left,safeStrncpy d (l ++ 0 :: after) num =
      some (l.take (num - 1) ++ 0 :: left,decide (l.length ≤ num - 1)) := by
  obtain ⟨j,d',hcopy,hj,hlen⟩ := copyLoop_spec (d := d) h0 after (num - 1) (Nat.zero_le _) (by omega)
  rw [List.take_zero, List.nil_append] at hcopy
  rw [Nat.zero_add] at hj
  have htake : l.take j = l.take (num - 1) := List.take_eq_take_iff.mpr (by omega)
  have hlenj : (l.take (num - 1)).length = j := by rw [List.length_take, hj]
  obtain ⟨x,left,rfl⟩ := List.exists_cons_of_length_pos (show 0 < d'.length by omega)
  rw [htake] at hcopy
  have hroom : j < (l.take (num - 1) ++ x :: left).length := by
    rw [List.length_append, List.length_cons]
    omega
  have hset : (l.take (num - 1) ++ x :: left).set j 0 = l.take (num - 1) ++ 0 :: left := by
    rw [List.set_append_right _ _ hlenj.le, hlenj, Nat.sub_self]
    rfl
  refine ⟨left,?_⟩
  simp only [safeStrncpy, if_neg (show num ≠ 0 by omega), hcopy, if_pos hroom, hset]
  rcases Nat.lt_or_ge (num - 1) l.length with hlt | hge
  · obtain rfl : j = num - 1 := by omega
    have hb : l[num - 1] ≠ 0 := fun h => h0 (h ▸ List.getElem_mem hlt)
    rw [getElem?_string after hlt]
    simp [hb, hlt]
  · obtain rfl : j = l.length := by omega
    rw [List.getElem?_append_right le_rfl, Nat.sub_self]
    simp [hge]

theorem cString_append {l : List UInt8} (h0 : 0 ∉ l) (after : List UInt8) : cString (l ++ 0 :: after) = l := by
  have hne : ∀ b ∈ l,decide (b ≠ 0) = true := fun b hb => decide_eq_true fun h => h0 (h ▸ hb)
  rw [cString, List.takeWhile_append_of_pos hne]
  simp

theorem strlen_append {l : List UInt8} (h0 : 0 ∉ l) (after : List UInt8) :
    strlen (l ++ 0 :: after) = some l.length := by
  unfold strlen
  rw [if_pos (List.mem_append_right _ List.mem_cons_self), cString_append h0]

def Starts (str : List UInt8) (len k : ℕ) : Prop := k ≤ len ∧ k < leadSize (str.getD (len - k) 0)

instance (str : List UInt8) (len k : ℕ) : Decidable (Starts str len k) :=
  inferInstanceAs (Decidable (_ ∧ _))

theorem trimUtf8String_eq {str : List UInt8} {len : ℕ} (h : strlen str = some len) :
    trimUtf8String false str = some
      (if Starts str len 3 then str.set (len - 3) 0
      else if Starts str len 2 then str.set (len - 2) 0
      else if Starts str len 1 then str.set (len - 1) 0
      else str) := by
  simp only [trimUtf8String, h, Bool.false_eq_true, if_false, Option.map_some, ← four_le_leadSize,
    ← three_le_leadSize, ← two_le_leadSize]
  rfl

theorem not_starts {pre part : List UInt8} (after : List UInt8) {k : ℕ} (hpre : Complete pre)
    (hk : part.length < k) : ¬ Starts (pre ++ part ++ after) (pre ++ part).length k := by
  rintro ⟨hle,hlt⟩
  rw [List.length_append] at hle hlt
  have hi : pre.length + part.length - k < pre.length := by omega
  rw [List.append_assoc, List.getD_eq_getElem?_getD, List.getElem?_append_left hi,
    List.getElem?_eq_getElem hi, Option.getD_some] at hlt
  have := hpre _ _ (List.getElem?_eq_getElem hi)
  omega

theorem starts_cut {pre part : List UInt8} (after : List UInt8) (h : IsCut part) :
    Starts (pre ++ part ++ after) (pre ++ part).length part.length := by
  obtain ⟨b,rest,rfl,hlead,-⟩ := h
  rw [Starts, List.length_append, Nat.add_sub_cancel, List.append_assoc, List.getD_eq_getElem?_getD,
    List.getElem?_append_right le_rfl, Nat.sub_self]
  exact ⟨by omega,hlead⟩

theorem leadSize_le_four (b : UInt8) : leadSize b ≤ 4 := by
  unfold leadSize
  split_ifs <;> norm_num

theorem trimUtf8String_complete {l : List UInt8} (h0 : 0 ∉ l) (after : List UInt8) (h : Complete l) :
    trimUtf8String false (l ++ 0 :: after) = some (l ++ 0 :: after) := by
  have hstarts : ∀ k,0 < k → ¬ Starts (l ++ 0 :: after) l.length k := by
    intro k hk
    have hnot := @not_starts l [] (0 :: after) k h hk
    rwa [List.append_nil] at hnot
  rw [trimUtf8String_eq (strlen_append h0 after), if_neg (hstarts 3 (by norm_num)),
    if_neg (hstarts 2 (by norm_num)), if_neg (hstarts 1 (by norm_num))]

theorem trimUtf8String_cut {pre part : List UInt8} (h0 : 0 ∉ pre ++ part) (after : List UInt8)
    (hpre : Complete pre) (hpart : IsCut part) :
    ∃ left,trimUtf8String false (pre ++ part ++ 0 :: after) = some (pre ++ 0 :: left) := by
  have hset : ∃ left,(pre ++ part ++ 0 :: after).set ((pre ++ part).length - part.length) 0 = pre ++ 0 :: left := by
    obtain ⟨b,rest,rfl,-,-⟩ := hpart
    refine ⟨rest ++ 0 :: after,?_⟩
    rw [List.length_append, Nat.add_sub_cancel, List.append_assoc, List.set_append_right _ _ le_rfl, Nat.sub_self]
    rfl
  have hstarts := @starts_cut pre _ (0 :: after) hpart
  have hlonger : ∀ k,part.length < k → ¬ Starts (pre ++ part ++ 0 :: after) (pre ++ part).length k :=
    fun k hk => not_starts (0 :: after) hpre hk
  have hsize : part.length = 1 ∨ part.length = 2 ∨ part.length = 3 := by
    obtain ⟨b,rest,rfl,hlead,-⟩ := hpart
    have := leadSize_le_four b
    rw [List.length_cons] at hlead ⊢
    omega
  obtain ⟨left,hset⟩ := hset
  refine ⟨left,?_⟩
  rw [trimUtf8String_eq (strlen_append h0 after), ← hset]
  rcases hsize with hsize | hsize | hsize
  · rw [hsize] at hstarts hlonger ⊢
    rw [if_neg (hlonger 3 (by norm_num)), if_neg (hlonger 2 (by norm_num)), if_pos hstarts]
  · rw [hsize] at hstarts hlonger ⊢
    rw [if_neg (hlonger 3 (by norm_num)), if_pos hstarts]
  · rw [hsize] at hstarts ⊢
    rw [if_pos hstarts]

/-- A string that is copied into a buffer of `num` bytes and trimmed is the longest prefix of whole characters
that fits in `num - 1` bytes, and trimming changes no string of whole characters. -/
theorem trimUtf8String_safeStrncpy {cs : List Char} (hcs : Char.ofNat 0 ∉ cs) (after destination : List UInt8)
    {num : ℕ} (hnum : 1 ≤ num) (hdestination : destination.length = num) :
    (∃ copied whole trimmed p,
      safeStrncpy destination (encode cs ++ 0 :: after) num = some (copied,whole) ∧
      trimUtf8String false copied = some trimmed ∧ cString trimmed = encode p ∧ p <+: cs ∧
      (encode p).length ≤ num - 1 ∧ ∀ q,q <+: cs → (encode q).length ≤ num - 1 → q <+: p) ∧
    trimUtf8String false (encode cs ++ 0 :: after) = some (encode cs ++ 0 :: after) := by
  have h0 := zero_notMem_encode hcs
  refine ⟨?_,trimUtf8String_complete h0 after (complete_encode cs)⟩
  obtain ⟨left,hcopy⟩ := safeStrncpy_spec h0 after hnum hdestination.ge
  obtain ⟨part,htake,hpart⟩ := take_encode (num - 1) cs
  have hfit : Char.ofNat 0 ∉ fitting (num - 1) cs := fun h => hcs ((fitting_isPrefix _ _).subset h)
  have hlongest : ∀ q,q <+: cs → (encode q).length ≤ num - 1 → q <+: fitting (num - 1) cs :=
    fun q => prefix_fitting
  have htaken : 0 ∉ (encode cs).take (num - 1) := fun h => h0 (List.mem_of_mem_take h)
  rw [htake] at hcopy htaken
  rcases hpart with rfl | hpart
  · rw [List.append_nil] at hcopy
    exact ⟨_,_,_,_,hcopy,trimUtf8String_complete (zero_notMem_encode hfit) left (complete_encode _),
      cString_append (zero_notMem_encode hfit) left,fitting_isPrefix _ _,length_encode_fitting _ _,hlongest⟩
  · obtain ⟨left',htrim⟩ := trimUtf8String_cut htaken left (complete_encode _) hpart
    exact ⟨_,_,_,_,hcopy,htrim,cString_append (zero_notMem_encode hfit) left',fitting_isPrefix _ _,
      length_encode_fitting _ _,hlongest⟩

/-- The euro sign takes three bytes and does not fit in three with the byte before it. -/
theorem trimUtf8String_safeStrncpy_euro :
    Char.ofNat 0 ∉ ['a',Char.ofNat 0x20ac] ∧ 1 ≤ 4 ∧
    ∃ copied whole trimmed p,
      safeStrncpy [1,1,1,1] (encode ['a',Char.ofNat 0x20ac] ++ 0 :: []) 4 = some (copied,whole) ∧
      trimUtf8String false copied = some trimmed ∧ cString trimmed = encode p ∧ p <+: ['a',Char.ofNat 0x20ac] ∧
      (encode p).length ≤ 4 - 1 ∧
      ∀ q,q <+: ['a',Char.ofNat 0x20ac] → (encode q).length ≤ 4 - 1 → q <+: p :=
  ⟨by decide,by decide,(trimUtf8String_safeStrncpy (by decide) [] [1,1,1,1] (by decide) rfl).1⟩

end Whist.CString
