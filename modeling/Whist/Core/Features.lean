import Mathlib.Tactic

/-! # Feature flags and their command-line options

The handlers of `--enable-features` and `--disable-features`, which gather value and mask bits, and the mask that
`whist_init_features` makes of them.  Strings end before the NUL.
-/
namespace Whist.Features

inductive WhistFeature
  | packetEncryption
  | longTermReferenceFrames
deriving DecidableEq

def WhistFeature.index : WhistFeature → ℕ
  | packetEncryption => 0
  | longTermReferenceFrames => 1

structure WhistFeatureDescriptor where
  feature : WhistFeature
  enabled : Bool
  name : List Char

def featureList (ltrDefaultSetting : Bool) : List WhistFeatureDescriptor :=
  [⟨.packetEncryption,true,"packet encryption".toList⟩,
   ⟨.longTermReferenceFrames,ltrDefaultSetting,"long-term reference frames".toList⟩]

def skip (s : List Char) : List Char := s.dropWhile (!·.isAlpha)

theorem skip_length_le (s : List Char) : (skip s).length ≤ s.length :=
  (List.dropWhile_suffix _).length_le

/-- The comparison loop of `match_feature_name`, on what the two pointers have left. -/
def matchFrom : List Char → List Char → Bool
  | [], _ => true
  | _ :: _, [] => false
  | s :: str, d :: name => if s.toLower ≠ d then false else matchFrom (skip str) (skip name)
termination_by str => str.length
decreasing_by exact Nat.lt_succ_of_le (skip_length_le str)

def matchFeatureName (ltrDefaultSetting : Bool) (str : List Char) : Option WhistFeatureDescriptor :=
  (featureList ltrDefaultSetting).find? fun feature => matchFrom str feature.name

def whistSuccess : ℤ := 0
def whistErrorNotFound : ℤ := -3

structure CommandLineOverride where
  values : BitVec 32
  mask : BitVec 32

def CommandLineOverride.zero : CommandLineOverride := ⟨0,0⟩

def CommandLineOverride.set (o : CommandLineOverride) (feature : WhistFeature) (enable : Bool) :
    CommandLineOverride where
  values := o.values ||| (BitVec.ofNat 32 enable.toNat <<< feature.index)
  mask := o.mask ||| (BitVec.ofNat 32 1 <<< feature.index)

/-- The statuses are returned through a `bool`. -/
def commandLineFeatureList (ltrDefaultSetting enable : Bool) (o : CommandLineOverride)
    (start : List Char) : Bool × CommandLineOverride :=
  match matchFeatureName ltrDefaultSetting (start.takeWhile (· != ',')) with
  | none => (whistErrorNotFound != 0,o)
  | some feature =>
    match _h : start.dropWhile (· != ',') with
    | [] => (whistSuccess != 0,o.set feature.feature enable)
    | _ :: rest => commandLineFeatureList ltrDefaultSetting enable (o.set feature.feature enable) rest
termination_by start.length
decreasing_by
  have hle := (List.dropWhile_suffix (l := start) (· != ',')).length_le
  rw [_h, List.length_cons] at hle
  exact hle

/-- One `--enable-features` or `--disable-features` option with its value. -/
structure FeatureOption where
  enable : Bool
  value : List Char

/-- `enable_features` and `disable_features`: the `bool` becomes a `WhistStatus`. -/
def handleFeatures (ltrDefaultSetting : Bool) (o : CommandLineOverride) (opt : FeatureOption) :
    ℤ × CommandLineOverride :=
  let ret := commandLineFeatureList ltrDefaultSetting opt.enable o opt.value
  (ret.1.toNat,ret.2)

/-- `whist_parse_command_line` stops at the first handler that does not return success. -/
def parseCommandLine (ltrDefaultSetting : Bool) :
    CommandLineOverride → List FeatureOption → ℤ × CommandLineOverride
  | o, [] => (whistSuccess,o)
  | o, opt :: opts =>
    let ret := handleFeatures ltrDefaultSetting o opt
    if ret.1 ≠ whistSuccess then ret else parseCommandLine ltrDefaultSetting ret.2 opts

def initFeature (o : CommandLineOverride) (mask : BitVec 32) (desc : WhistFeatureDescriptor) :
    BitVec 32 :=
  let bit := BitVec.ofNat 32 1 <<< desc.feature.index
  if bit &&& o.mask ≠ 0 then
    if bit &&& o.values ≠ 0 then mask ||| bit else mask
  else if desc.enabled then mask ||| bit else mask

def whistInitFeatures (ltrDefaultSetting : Bool) (o : CommandLineOverride) : BitVec 32 :=
  (featureList ltrDefaultSetting).foldl (initFeature o) 0

def whistCheckFeature (mask : BitVec 32) (feature : WhistFeature) : Bool :=
  decide (mask &&& (BitVec.ofNat 32 1 <<< feature.index) ≠ 0)

def letters (s : List Char) : List Char := (s.filter Char.isAlpha).map Char.toLower

def mentions (opts : List FeatureOption) : List (List Char × Bool) :=
  opts.flatMap fun opt => (opt.value.splitOn ',').map (·,opt.enable)

def EveryNameMatches (ltrDefaultSetting : Bool) (opts : List FeatureOption) : Prop :=
  ∀ m ∈ mentions opts, ∃ desc ∈ featureList ltrDefaultSetting, letters m.1 = letters desc.name

/-- The mentions of one feature: `true` for those in an enable list. -/
def mentionsOf (desc : WhistFeatureDescriptor) (opts : List FeatureOption) : List Bool :=
  ((mentions opts).filter fun m => letters m.1 == letters desc.name).map Prod.snd

def asked (desc : WhistFeatureDescriptor) (opts : List FeatureOption) : Bool :=
  (mentionsOf desc opts).getLast?.getD desc.enabled

/-- The options are accepted and heeded when all their names match, and refused with a status
that `isError` holds of otherwise. -/
def FollowsLastMention (isError : ℤ → Prop) (ltrDefaultSetting : Bool)
    (opts : List FeatureOption) : Prop :=
  let ret := parseCommandLine ltrDefaultSetting .zero opts
  (EveryNameMatches ltrDefaultSetting opts → ret.1 = whistSuccess ∧
    ∀ desc ∈ featureList ltrDefaultSetting,
      whistCheckFeature (whistInitFeatures ltrDefaultSetting ret.2) desc.feature = asked desc opts) ∧
  (¬ EveryNameMatches ltrDefaultSetting opts → isError ret.1)

theorem letters_skip (s : List Char) : letters (skip s) = letters s := by
  induction s with
  | nil => rfl
  | cons c s ih =>
    cases hc : c.isAlpha with
    | true => simp [skip,hc]
    | false => simpa [skip,letters,hc] using ih

def AtLetter (s : List Char) : Prop := ∀ c ∈ s.head?, c.isAlpha

theorem atLetter_skip (s : List Char) : AtLetter (skip s) := by
  intro c hc
  have h := List.head?_dropWhile_not (fun c : Char => !c.isAlpha) s
  rw [skip] at hc
  rw [Option.mem_def.1 hc] at h
  simpa using h

def LowerCase (name : List Char) : Prop := ∀ c ∈ name, c.isAlpha → c.toLower = c

theorem LowerCase.skip {name : List Char} (h : LowerCase name) : LowerCase (skip name) :=
  fun c hc => h c ((List.dropWhile_suffix _).subset hc)

theorem matchFrom_iff_isPrefix {str name : List Char} (hs : AtLetter str) (hn : AtLetter name)
    (hlow : LowerCase name) : matchFrom str name = true ↔ letters str <+: letters name := by
  induction str, name using matchFrom.induct with
  | case1 name => simp [matchFrom,letters]
  | case2 c str =>
    have hc : c.isAlpha := hs c rfl
    simp [matchFrom,letters,hc]
  | case3 c str d name hne =>
    have hc : c.isAlpha := hs c rfl
    have hd : d.isAlpha := hn d rfl
    have hdl := hlow d (by simp) hd
    simp [matchFrom,letters,hc,hd,hdl,hne]
  | case4 c str d name heq ih =>
    have hc : c.isAlpha := hs c rfl
    have hd : d.isAlpha := hn d rfl
    have hdl := hlow d (by simp) hd
    have hrest := ih (atLetter_skip str) (atLetter_skip name)
      (LowerCase.skip fun c hc => hlow c (by simp [hc]))
    rw [letters_skip,letters_skip] at hrest
    rw [matchFrom,if_neg heq,hrest]
    simp only [letters,List.filter_cons,hc,hd,if_true,List.map_cons,hdl,not_not.1 heq,
      List.cons_prefix_cons,true_and]

def LetterFirst (str : List Char) : Prop := ∃ c ∈ str.head?, c.isAlpha

section Names
variable {ltr : Bool} {desc desc' : WhistFeatureDescriptor} {str : List Char}

theorem atLetter_name (h : desc ∈ featureList ltr) : AtLetter desc.name := by
  intro c hc
  rcases List.mem_pair.1 h with rfl | rfl
  · obtain rfl : 'p' = c := Option.some.inj hc
    decide
  · obtain rfl : 'l' = c := Option.some.inj hc
    decide

instance (name : List Char) : Decidable (LowerCase name) :=
  List.decidableBAll (fun c : Char => c.isAlpha → c.toLower = c) name

theorem lowerCase_name (h : desc ∈ featureList ltr) : LowerCase desc.name := by
  have hp : LowerCase "packet encryption".toList := by decide
  have hl : LowerCase "long-term reference frames".toList := by decide
  rcases List.mem_pair.1 h with rfl | rfl
  · exact hp
  · exact hl

theorem toLower_eq_self {c : Char} (hc : ¬ c.isAlpha) : c.toLower = c :=
  dif_neg fun h => hc (Bool.or_eq_true_iff.mpr (Or.inl (decide_eq_true h)))

theorem matchFrom_not_letterFirst (hd : desc ∈ featureList ltr) (hne : str ≠ [])
    (hs : ¬ LetterFirst str) : matchFrom str desc.name = false := by
  cases str with
  | nil => exact absurd rfl hne
  | cons c str =>
    have hc : ¬ c.isAlpha := fun hc => hs ⟨c,rfl,hc⟩
    have hn := atLetter_name hd
    cases hname : desc.name with
    | nil => exact matchFrom.eq_2 c str
    | cons d name =>
      have hda : d.isAlpha := hn d (by rw [hname]; rfl)
      have hsame : c.toLower ≠ d := by
        intro heq
        rw [toLower_eq_self hc] at heq
        exact hc (heq ▸ hda)
      rw [matchFrom,if_pos hsame]

theorem matchFrom_iff (hd : desc ∈ featureList ltr) : matchFrom str desc.name = true ↔
    str = [] ∨ LetterFirst str ∧ letters str <+: letters desc.name := by
  rcases eq_or_ne str [] with rfl | hne
  · simp [matchFrom]
  · by_cases hs : LetterFirst str
    · have hat : AtLetter str := by
        obtain ⟨c,hc,ha⟩ := hs
        intro d hd
        exact Option.mem_unique hc hd ▸ ha
      rw [matchFrom_iff_isPrefix hat (atLetter_name hd) (lowerCase_name hd)]
      exact ⟨fun h => .inr ⟨hs,h⟩,fun h => (h.resolve_left hne).2⟩
    · rw [matchFrom_not_letterFirst hd hne hs]
      exact ⟨fun h => (by cases h),fun h => (h.elim hne fun h => hs h.1).elim⟩

theorem letters_ne_nil (hs : LetterFirst str) : letters str ≠ [] := by
  obtain ⟨c,hc,ha⟩ := hs
  cases str with
  | nil => cases hc
  | cons d str =>
    obtain rfl : d = c := Option.some.inj hc
    simp [letters,ha]

theorem feature_eq_of_isPrefix (hd : desc ∈ featureList ltr) (hd' : desc' ∈ featureList ltr)
    {l : List Char} (hl : l ≠ []) (h : l <+: letters desc.name) (h' : l <+: letters desc'.name) :
    desc = desc' := by
  cases l with
  | nil => exact absurd rfl hl
  | cons c l =>
    have hhead : ∀ {m : List Char}, c :: l <+: m → m.head? = some c := by
      rintro m ⟨t,rfl⟩
      rfl
    have hsame := (hhead h).trans (hhead h').symm
    have hdiff : (letters "packet encryption".toList).head? ≠
        (letters "long-term reference frames".toList).head? := by decide
    rcases List.mem_pair.1 hd with rfl | rfl <;> rcases List.mem_pair.1 hd' with rfl | rfl
    · rfl
    · exact absurd hsame hdiff
    · exact absurd hsame.symm hdiff
    · rfl

theorem matchFeatureName_eq (hd : desc ∈ featureList ltr) (hs : LetterFirst str)
    (h : letters str = letters desc.name) : matchFeatureName ltr str = some desc := by
  have hpre : letters str <+: letters desc.name := h ▸ List.prefix_rfl
  have hm := (matchFrom_iff hd).2 (.inr ⟨hs,hpre⟩)
  cases hf : matchFeatureName ltr str with
  | none => exact absurd hm (by simpa using List.find?_eq_none.1 hf desc hd)
  | some desc' =>
    have hd' := List.mem_of_find?_eq_some hf
    have hm' : matchFrom str desc'.name = true := by
      have := List.find?_some hf
      exact this
    rcases (matchFrom_iff hd').1 hm' with rfl | ⟨_,hpre'⟩
    · obtain ⟨c,hc,_⟩ := hs
      cases hc
    · rw [feature_eq_of_isPrefix hd hd' (letters_ne_nil hs) hpre hpre']

def Accepted (ltr : Bool) (str : List Char) : Prop :=
  str = [] ∨ LetterFirst str ∧ ∃ desc ∈ featureList ltr, letters str <+: letters desc.name

theorem matchFeatureName_eq_none_iff : matchFeatureName ltr str = none ↔ ¬ Accepted ltr str := by
  have hne : featureList ltr ≠ [] := List.cons_ne_nil _ _
  obtain ⟨desc,hd⟩ := List.exists_mem_of_ne_nil _ hne
  rw [matchFeatureName,List.find?_eq_none]
  constructor
  · rintro h (rfl | ⟨hs,desc',hd',hp⟩)
    · exact h desc hd ((matchFrom_iff hd).2 (.inl rfl))
    · exact h desc' hd' ((matchFrom_iff hd').2 (.inr ⟨hs,hp⟩))
  · intro h desc' hd' hm
    rcases (matchFrom_iff hd').1 hm with rfl | ⟨hs,hp⟩
    · exact h (.inl rfl)
    · exact h (.inr ⟨hs,desc',hd',hp⟩)

end Names

def heed (ltr : Bool) : CommandLineOverride → List (List Char × Bool) → Bool × CommandLineOverride
  | o, [] => (false,o)
  | o, m :: ms =>
    match matchFeatureName ltr m.1 with
    | none => (true,o)
    | some desc => heed ltr (o.set desc.feature m.2) ms

section Heed
variable {ltr : Bool}

theorem comma_notMem_takeWhile (start : List Char) : ',' ∉ start.takeWhile (· != ',') := by
  intro hmem
  have hall := List.all_eq_true.1 (List.all_takeWhile (p := (· != ',')) (l := start)) ',' hmem
  simp at hall

theorem splitOn_of_dropWhile_nil {start : List Char} (h : start.dropWhile (· != ',') = []) :
    start.splitOn ',' = [start.takeWhile (· != ',')] := by
  have htake := List.takeWhile_append_dropWhile (p := (· != ',')) (l := start)
  rw [h,List.append_nil] at htake
  rw [htake]
  exact List.splitOn_eq_singleton (htake ▸ comma_notMem_takeWhile start)

theorem splitOn_of_dropWhile_cons {start rest : List Char} {c : Char}
    (h : start.dropWhile (· != ',') = c :: rest) :
    start.splitOn ',' = start.takeWhile (· != ',') :: rest.splitOn ',' := by
  have hc : c = ',' := by
    have hhead := List.head?_dropWhile_not (fun c : Char => c != ',') start
    rw [h] at hhead
    simpa using hhead
  have htake := List.takeWhile_append_dropWhile (p := (· != ',')) (l := start)
  rw [h,hc] at htake
  have hfirst := List.splitOn_eq_singleton (comma_notMem_takeWhile start)
  calc start.splitOn ','
      = (start.takeWhile (· != ',') ++ ',' :: rest).splitOn ',' := by rw [htake]
    _ = _ := by rw [List.splitOn_append_cons_of_beq _ _ (beq_self_eq_true ','),hfirst]; rfl

theorem commandLineFeatureList_eq (enable : Bool) (o : CommandLineOverride) (start : List Char) :
    commandLineFeatureList ltr enable o start =
      heed ltr o ((start.splitOn ',').map (·,enable)) := by
  induction o, start using commandLineFeatureList.induct ltr enable with
  | case1 o start hm =>
    rw [commandLineFeatureList,hm]
    cases h : start.dropWhile (· != ',') with
    | nil => rw [splitOn_of_dropWhile_nil h,List.map_cons,heed,hm]; rfl
    | cons c rest => rw [splitOn_of_dropWhile_cons h,List.map_cons,heed,hm]; rfl
  | case2 o start desc hm h =>
    rw [commandLineFeatureList,hm,splitOn_of_dropWhile_nil h,List.map_cons,heed,hm]
    dsimp only
    split
    · rfl
    · next hcons => cases hcons.symm.trans h
  | case3 o start desc hm c rest h ih =>
    rw [commandLineFeatureList,hm,splitOn_of_dropWhile_cons h,List.map_cons,heed,hm]
    dsimp only
    split
    · next hnil => cases hnil.symm.trans h
    · next hcons =>
      cases hcons.symm.trans h
      exact ih

theorem heed_append (o : CommandLineOverride) (ms ns : List (List Char × Bool)) :
    heed ltr o (ms ++ ns) =
      if (heed ltr o ms).1 then heed ltr o ms else heed ltr (heed ltr o ms).2 ns := by
  induction ms generalizing o with
  | nil => rfl
  | cons m ms ih =>
    rw [List.cons_append,heed,heed]
    cases matchFeatureName ltr m.1 with
    | none => rfl
    | some desc => exact ih _

theorem parseCommandLine_eq (o : CommandLineOverride) (opts : List FeatureOption) :
    parseCommandLine ltr o opts =
      (((heed ltr o (mentions opts)).1.toNat : ℤ),(heed ltr o (mentions opts)).2) := by
  induction opts generalizing o with
  | nil => rfl
  | cons opt opts ih =>
    have hm : mentions (opt :: opts) =
        (opt.value.splitOn ',').map (·,opt.enable) ++ mentions opts := List.flatMap_cons
    rw [parseCommandLine,handleFeatures,commandLineFeatureList_eq,hm,heed_append]
    cases h : (heed ltr o ((opt.value.splitOn ',').map (·,opt.enable))).1 with
    | true => simp [whistSuccess,h]
    | false => simpa [whistSuccess,h] using ih _

theorem heed_fst_iff (o : CommandLineOverride) (ms : List (List Char × Bool)) :
    (heed ltr o ms).1 = false ↔ ∀ m ∈ ms, Accepted ltr m.1 := by
  induction ms generalizing o with
  | nil => simp [heed]
  | cons m ms ih =>
    rw [heed,List.forall_mem_cons]
    cases h : matchFeatureName ltr m.1 with
    | none =>
      have hnot := matchFeatureName_eq_none_iff.1 h
      exact ⟨fun h => (by cases h),fun h => absurd h.1 hnot⟩
    | some desc =>
      have hacc : Accepted ltr m.1 := by
        by_contra hnot
        rw [matchFeatureName_eq_none_iff.2 hnot] at h
        cases h
      exact (ih _).trans ⟨fun h => ⟨hacc,h⟩,And.right⟩

end Heed

section Bits
variable {ltr : Bool}

theorem or_shift_getLsbD (w : BitVec 32) (b : Bool) (f g : WhistFeature) :
    (w ||| (BitVec.ofNat 32 b.toNat <<< f.index)).getLsbD g.index =
      (w.getLsbD g.index || (b && decide (f = g))) := by
  cases f <;> cases g <;> cases b <;> simp [WhistFeature.index]

theorem shift_and_ne_zero (w : BitVec 32) (f : WhistFeature) :
    (BitVec.ofNat 32 1 <<< f.index &&& w ≠ 0) ↔ w.getLsbD f.index = true := by
  have hpow : BitVec.twoPow 32 f.index ≠ 0 := by cases f <;> decide
  have hand : BitVec.ofNat 32 1 <<< f.index &&& w =
      if w.getLsbD f.index then BitVec.twoPow 32 f.index else 0 := BitVec.twoPow_and w f.index
  rw [hand]
  cases w.getLsbD f.index with
  | false => simp
  | true => simpa using hpow

theorem whistCheckFeature_eq (mask : BitVec 32) (f : WhistFeature) :
    whistCheckFeature mask f = mask.getLsbD f.index := by
  rw [Bool.eq_iff_iff,whistCheckFeature,decide_eq_true_iff,BitVec.and_comm]
  exact shift_and_ne_zero mask f

@[simp] theorem set_mask (o : CommandLineOverride) (f g : WhistFeature) (enable : Bool) :
    (o.set f enable).mask.getLsbD g.index = (o.mask.getLsbD g.index || decide (f = g)) := by
  have hbit := or_shift_getLsbD o.mask true f g
  rw [Bool.true_and] at hbit
  exact hbit

@[simp] theorem set_values (o : CommandLineOverride) (f g : WhistFeature) (enable : Bool) :
    (o.set f enable).values.getLsbD g.index =
      (o.values.getLsbD g.index || (enable && decide (f = g))) :=
  or_shift_getLsbD o.values enable f g

theorem whistCheckFeature_init (o : CommandLineOverride) {desc : WhistFeatureDescriptor}
    (hd : desc ∈ featureList ltr) :
    whistCheckFeature (whistInitFeatures ltr o) desc.feature =
      if o.mask.getLsbD desc.feature.index then o.values.getLsbD desc.feature.index
      else desc.enabled := by
  have hstep : ∀ (mask : BitVec 32) (d : WhistFeatureDescriptor), initFeature o mask d =
      mask ||| (BitVec.ofNat 32 (if o.mask.getLsbD d.feature.index then
        o.values.getLsbD d.feature.index else d.enabled).toNat <<< d.feature.index) := by
    intro mask d
    simp only [initFeature,shift_and_ne_zero]
    cases o.mask.getLsbD d.feature.index <;> cases o.values.getLsbD d.feature.index <;>
      cases d.enabled <;> simp
  rw [whistCheckFeature_eq]
  simp only [whistInitFeatures,featureList,List.foldl_cons,List.foldl_nil,hstep,or_shift_getLsbD]
  rcases List.mem_pair.1 hd with rfl | rfl <;> simp

end Bits

section Follow
variable {ltr : Bool}

def among (desc : WhistFeatureDescriptor) (ms : List (List Char × Bool)) : List Bool :=
  (ms.filter fun m => letters m.1 == letters desc.name).map Prod.snd

theorem feature_injective {desc desc' : WhistFeatureDescriptor} (hd : desc ∈ featureList ltr)
    (hd' : desc' ∈ featureList ltr) :
    desc'.feature = desc.feature ↔ letters desc'.name = letters desc.name := by
  have hdiff : letters "packet encryption".toList ≠
      letters "long-term reference frames".toList := by decide
  rcases List.mem_pair.1 hd with rfl | rfl <;> rcases List.mem_pair.1 hd' with rfl | rfl
  · exact ⟨fun _ => rfl,fun _ => rfl⟩
  · exact ⟨fun h => (by cases h),fun h => absurd h.symm hdiff⟩
  · exact ⟨fun h => (by cases h),fun h => absurd h hdiff⟩
  · exact ⟨fun _ => rfl,fun _ => rfl⟩

theorem among_cons (desc : WhistFeatureDescriptor) (m : List Char × Bool)
    (ms : List (List Char × Bool)) : among desc (m :: ms) =
      if letters m.1 = letters desc.name then m.2 :: among desc ms else among desc ms := by
  by_cases h : letters m.1 = letters desc.name <;> simp [among,h]

theorem heed_bits {ms : List (List Char × Bool)} (o : CommandLineOverride)
    (hms : ∀ m ∈ ms, LetterFirst m.1 ∧ ∃ desc ∈ featureList ltr, letters m.1 = letters desc.name)
    {desc : WhistFeatureDescriptor} (hd : desc ∈ featureList ltr) :
    ((heed ltr o ms).2.mask.getLsbD desc.feature.index =
      (o.mask.getLsbD desc.feature.index || !(among desc ms).isEmpty)) ∧
    (heed ltr o ms).2.values.getLsbD desc.feature.index =
      (o.values.getLsbD desc.feature.index || (among desc ms).contains true) := by
  induction ms generalizing o with
  | nil => simp [heed,among]
  | cons m ms ih =>
    obtain ⟨hs,desc',hd',hl⟩ := hms m List.mem_cons_self
    have hrest := ih (o.set desc'.feature m.2) fun m hm => hms m (List.mem_cons_of_mem _ hm)
    rw [heed,matchFeatureName_eq hd' hs hl]
    dsimp only
    rw [hrest.1,hrest.2,set_mask,set_values,among_cons,hl]
    by_cases hsame : letters desc'.name = letters desc.name
    · have hf := (feature_injective hd hd').2 hsame
      cases hm : m.2 <;> simp [hsame,hf]
    · have hf : desc'.feature ≠ desc.feature := fun h => hsame ((feature_injective hd hd').1 h)
      simp [hsame,hf]

/-- Every name matches, starts with a letter, and no feature is mentioned last in a disable list
after an enable list named it. -/
structure Heeded (ltr : Bool) (opts : List FeatureOption) : Prop where
  named : EveryNameMatches ltr opts
  letterFirst : ∀ m ∈ mentions opts, LetterFirst m.1
  notWithdrawn : ∀ desc ∈ featureList ltr,
    (mentionsOf desc opts).getLast? = some false → true ∉ mentionsOf desc opts

/-- Some name matches no feature, and some name is neither empty nor the beginning of one. -/
def Refused (ltr : Bool) (opts : List FeatureOption) : Prop :=
  ¬ EveryNameMatches ltr opts ∧ ∃ m ∈ mentions opts, ¬ Accepted ltr m.1

theorem accepted_iff_letterFirst {str : List Char} {desc : WhistFeatureDescriptor}
    (hd : desc ∈ featureList ltr) (h : letters str = letters desc.name) :
    Accepted ltr str ↔ LetterFirst str := by
  constructor
  · rintro (rfl | ⟨hs,_⟩)
    · have hne : letters desc.name ≠ [] := by
        rcases List.mem_pair.1 hd with rfl | rfl <;> simp [letters]
      exact absurd h.symm hne
    · exact hs
  · exact fun hs => .inr ⟨hs,desc,hd,h ▸ List.prefix_rfl⟩

theorem recorded_eq_asked_iff (l : List Bool) (default : Bool) :
    (if !l.isEmpty then l.contains true else default) = l.getLast?.getD default ↔
      (l.getLast? = some false → true ∉ l) := by
  rcases List.eq_nil_or_concat l with rfl | ⟨l,b,rfl⟩
  · simp
  · cases b <;> simp

variable {opts : List FeatureOption}

theorem parseCommandLine_success_iff : (parseCommandLine ltr .zero opts).1 = whistSuccess ↔
    ∀ m ∈ mentions opts, Accepted ltr m.1 := by
  rw [parseCommandLine_eq,← heed_fst_iff .zero]
  cases (heed ltr .zero (mentions opts)).1 <;> simp [whistSuccess]

theorem parseCommandLine_nonneg : 0 ≤ (parseCommandLine ltr .zero opts).1 := by
  rw [parseCommandLine_eq]
  exact Int.natCast_nonneg _

theorem parseCommandLine_bits_iff (hnamed : EveryNameMatches ltr opts)
    (hletter : ∀ m ∈ mentions opts, LetterFirst m.1) {desc : WhistFeatureDescriptor}
    (hd : desc ∈ featureList ltr) :
    whistCheckFeature (whistInitFeatures ltr (parseCommandLine ltr .zero opts).2) desc.feature =
      asked desc opts ↔
    ((mentionsOf desc opts).getLast? = some false → true ∉ mentionsOf desc opts) := by
  have hbits := heed_bits .zero (fun m hm => ⟨hletter m hm,hnamed m hm⟩) hd
  have hzero : ∀ i, (0 : BitVec 32).getLsbD i = false := fun i => by simp
  simp only [CommandLineOverride.zero,hzero,Bool.false_or] at hbits
  rw [whistCheckFeature_init _ hd,parseCommandLine_eq]
  simp only [CommandLineOverride.zero,hbits]
  exact recorded_eq_asked_iff (mentionsOf desc opts) desc.enabled

theorem followed_iff_heeded (hnamed : EveryNameMatches ltr opts) :
    ((parseCommandLine ltr .zero opts).1 = whistSuccess ∧ ∀ desc ∈ featureList ltr,
      whistCheckFeature (whistInitFeatures ltr (parseCommandLine ltr .zero opts).2) desc.feature =
        asked desc opts) ↔ Heeded ltr opts := by
  have haccepted : (∀ m ∈ mentions opts, Accepted ltr m.1) ↔
      ∀ m ∈ mentions opts, LetterFirst m.1 := by
    refine forall₂_congr fun m hm => ?_
    obtain ⟨desc,hd,hl⟩ := hnamed m hm
    exact accepted_iff_letterFirst hd hl
  rw [parseCommandLine_success_iff,haccepted]
  constructor
  · rintro ⟨hletter,hbits⟩
    exact ⟨hnamed,hletter,fun desc hd =>
      (parseCommandLine_bits_iff hnamed hletter hd).1 (hbits desc hd)⟩
  · intro h
    exact ⟨h.letterFirst,fun desc hd =>
      (parseCommandLine_bits_iff hnamed h.letterFirst hd).2 (h.notWithdrawn desc hd)⟩

/-- Read with the documented statuses, where errors are negative, the options follow the last
mention in the command lines that are heeded, and in no other; read with any status other than
success as an error, also in those that are refused. -/
theorem featureOptions_follow_iff (ltr : Bool) (opts : List FeatureOption) :
    (FollowsLastMention (· < 0) ltr opts ↔ Heeded ltr opts) ∧
    (FollowsLastMention (· ≠ whistSuccess) ltr opts ↔ Heeded ltr opts ∨ Refused ltr opts) := by
  by_cases hnamed : EveryNameMatches ltr opts
  · have hrefused : ¬ Refused ltr opts := fun h => h.1 hnamed
    have hfollow : ∀ isError, FollowsLastMention isError ltr opts ↔ Heeded ltr opts := fun isError =>
      ⟨fun h => (followed_iff_heeded hnamed).1 (h.1 hnamed),
        fun h => ⟨fun _ => (followed_iff_heeded hnamed).2 h,fun h => absurd hnamed h⟩⟩
    exact ⟨hfollow _,(hfollow _).trans ⟨.inl,fun h => h.resolve_right hrefused⟩⟩
  · have hheeded : ¬ Heeded ltr opts := fun h => hnamed h.named
    have hfollow : ∀ isError : ℤ → Prop, FollowsLastMention isError ltr opts ↔
        isError (parseCommandLine ltr .zero opts).1 := fun isError =>
      ⟨fun h => h.2 hnamed,fun h => ⟨fun hn => absurd hn hnamed,fun _ => h⟩⟩
    constructor
    · refine (hfollow _).trans ⟨fun h => absurd parseCommandLine_nonneg (not_le.2 h),
        fun h => absurd h hheeded⟩
    · refine (hfollow _).trans ?_
      rw [Ne,parseCommandLine_success_iff]
      constructor
      · intro h
        push Not at h
        exact .inr ⟨hnamed,h⟩
      · rintro (h | ⟨_,m,hm,hrej⟩) hall
        · exact hheeded h
        · exact hrej (hall m hm)

/-- Packet encryption, enabled and then disabled, stays enabled. -/
theorem withdrawn_feature_stays : ¬ FollowsLastMention (· ≠ whistSuccess) true
    [⟨true,"packet encryption".toList⟩,⟨false,"packet encryption".toList⟩] := by
  intro h
  have hnamed : EveryNameMatches true
      [⟨true,"packet encryption".toList⟩,⟨false,"packet encryption".toList⟩] := by
    intro m hm
    refine ⟨⟨.packetEncryption,true,"packet encryption".toList⟩,List.mem_cons_self,?_⟩
    rcases List.mem_pair.1 hm with rfl | rfl <;> rfl
  have hheeded := (followed_iff_heeded hnamed).1 (h.1 hnamed)
  exact hheeded.notWithdrawn _ List.mem_cons_self rfl (List.mem_cons_self)

end Follow

end Whist.Features
