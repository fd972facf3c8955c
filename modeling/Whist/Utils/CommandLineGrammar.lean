import Whist.Utils.CommandLine

/-! # The grammar of the command line -/
namespace Whist.CommandLine

def onlyMatch (options : List WhistCommandLineOption) (name : Word) : Option WhistCommandLineOption :=
  let found := options.filter fun opt => opt.startsWith name
  if found.length = 1 then found.head? else none

def select (options : List WhistCommandLineOption) (name : Word) : Option WhistCommandLineOption :=
  match options.find? (fun opt => opt.longOption = some name) with
  | some opt => some opt
  | none => onlyMatch options name

structure Reading where
  calls : List Call
  error : Option WhistStatus
  /-- The next word is its value. -/
  skip : Bool

def Reading.call (opt : WhistCommandLineOption) (value : Option Word) (skip : Bool) : Reading :=
  ⟨[.option opt value],none,skip⟩

def Reading.fail (status : WhistStatus) : Reading := ⟨[],some status,false⟩

variable (options : List WhistCommandLineOption) (h : Handlers)

def readLong (following : Option Word) (text : Word) : Reading :=
  match select options (splitName text).1 with
  | none => .fail notFound
  | some opt =>
    match (splitName text).2 with
    | some value => if opt.requiredArgument ∨ opt.optionalArgument then .call opt (some value) false else .fail errorSyntax
    | none =>
      if opt.requiredArgument then
        match following with
        | none => .fail errorSyntax
        | some value => .call opt (some value) true
      else if opt.optionalArgument ∧ (plainWord following).isSome then .call opt following true
      else .call opt none false

def readShorts (following : Option Word) : Word → Reading
  | [] => ⟨[],none,false⟩
  | c :: rest =>
    match findShortOption options c with
    | none => .fail notFound
    | some opt =>
      if (opt.requiredArgument ∨ opt.optionalArgument) ∧ rest ≠ [] then .call opt (some rest) false
      else if opt.requiredArgument then
        match following with
        | some value => .call opt (some value) true
        | none => .fail errorSyntax
      else if opt.optionalArgument ∧ (plainWord following).isSome then .call opt following true
      else
        let later := readShorts following rest
        { later with calls := .option opt none :: later.calls }

def readOperand (position : ℕ) (arg : Word) : Reading :=
  if h.takesOperands then ⟨[.operand position arg],none,false⟩ else .fail errorSyntax

def readWord (position : ℕ) (arg : Word) (following : Option Word) : Reading :=
  match arg with
  | '-' :: '-' :: text => readLong options following text
  | '-' :: c :: rest => readShorts options following (c :: rest)
  | _ => readOperand h position arg

structure Grammar where
  calls : List Call
  error : Option WhistStatus
  operands : List Call

def operandCalls (position : ℕ) (words : List Word) : List Call := words.mapIdx fun i word => .operand (position + i) word

def grammar : ℕ → Bool → List Word → Grammar
  | _, _, [] => ⟨[],none,[]⟩
  | position, true, _ :: rest => grammar (position + 1) false rest
  | position, false, arg :: rest =>
    if arg = ['-','-'] then ⟨[],none,operandCalls (position + 1) rest⟩
    else
      let word := readWord options h position arg rest.head?
      match word.error with
      | some status => ⟨word.calls,some status,[]⟩
      | none =>
        let later := grammar (position + 1) word.skip rest
        { later with calls := word.calls ++ later.calls }

def perform : List Call → List Call → List Call × WhistStatus
  | [], calls => (calls,success)
  | c :: rest, calls =>
    let ret := h.call calls c
    if ret = success then perform rest (calls ++ [c]) else (calls ++ [c],ret)

def meaning (calls : List Call) (g : Grammar) : Result :=
  let done := perform h g.calls calls
  if showsUsage done.1 then (done.1,.exited)
  else if done.2 ≠ success then (done.1,.returned done.2)
  else
    match g.error with
    | some status => (done.1,.returned status)
    | none =>
      if g.operands = [] ∨ h.takesOperands then
        let last := perform h g.operands done.1
        (last.1,.returned last.2)
      else (done.1,.returned errorSyntax)

def FollowsGrammar (registered : List WhistCommandLineOption) (h : Handlers) (argv : List Word) : Prop :=
  whistParseCommandLine registered h argv = meaning h [] (grammar (optionList registered) h 1 false argv.tail)

def Shadowed (name : Word) : Prop :=
  (∃ opt ∈ options, opt.longOption = some name) ∧ (options.filter fun opt => opt.startsWith name).length ≠ 1

def GroupSafe (calls : List Call) (word : Reading) : Prop :=
  ∀ front c back, word.calls = front ++ c :: back → h.call (calls ++ front) c ≠ success → back = [] ∧
    ∀ status, word.error = some status → status = h.call (calls ++ front) c ∨ showsUsage (calls ++ word.calls) = true

def WordSafe (arg : Word) (calls : List Call) (word : Reading) : Prop :=
  match arg with
  | '-' :: '-' :: text => Shadowed options (splitName text).1 → word.calls = [] ∧ showsUsage calls = true
  | '-' :: _ :: _ => GroupSafe h calls word
  | _ => h.takesOperands = true

def Safe : ℕ → Bool → List Word → List Call → Prop
  | _, _, [], _ => True
  | position, true, _ :: rest, calls => Safe (position + 1) false rest calls
  | position, false, arg :: rest, calls =>
    if arg = ['-','-'] then rest = [] ∨ h.takesOperands = true ∨ showsUsage calls = true
    else
      let word := readWord options h position arg rest.head?
      WordSafe options h arg calls word ∧ (word.error = none → (perform h word.calls calls).2 = success →
        Safe (position + 1) word.skip rest (calls ++ word.calls))

variable {options h}

theorem perform_cases (h : Handlers) (list calls : List Call) :
    (perform h list calls = (calls ++ list,success) ∧
      ∀ front c back, list = front ++ c :: back → h.call (calls ++ front) c = success) ∨
    ∃ front c back, list = front ++ c :: back ∧ h.call (calls ++ front) c ≠ success ∧
      perform h list calls = (calls ++ front ++ [c],h.call (calls ++ front) c) ∧
      ∀ front' c' back', front = front' ++ c' :: back' → h.call (calls ++ front') c' = success := by
  induction list generalizing calls with
  | nil =>
    refine Or.inl ⟨by rw [List.append_nil]; rfl,?_⟩
    intro front c back hlist
    exact absurd hlist.symm (List.append_ne_nil_of_right_ne_nil _ (List.cons_ne_nil _ _))
  | cons first list ih =>
    rw [perform]
    by_cases hfirst : h.call calls first = success
    · rw [if_pos hfirst]
      have hcons : ∀ front, calls ++ [first] ++ front = calls ++ first :: front := by
        intro front
        rw [List.append_assoc]
        rfl
      have hhead : ∀ {front : List Call} {c : Call} {back rest : List Call}, first :: rest = front ++ c :: back →
          (∀ front' c' back', rest = front' ++ c' :: back' → h.call (calls ++ [first] ++ front') c' = success) →
          h.call (calls ++ front) c = success := by
        intro front c back rest hsplit hrest
        cases front with
        | nil =>
          rw [List.nil_append, List.cons.injEq] at hsplit
          rw [List.append_nil, ← hsplit.1, hfirst]
        | cons d front =>
          rw [List.cons_append, List.cons.injEq] at hsplit
          rw [← hsplit.1, ← hcons]
          exact hrest front c back hsplit.2
      rcases ih (calls ++ [first]) with ⟨hperform,hall⟩ | ⟨front,c,back,hlist,hfail,hperform,hfront⟩
      · exact Or.inl ⟨by rw [hperform, hcons],fun front c back hsplit => hhead hsplit hall⟩
      · refine Or.inr ⟨first :: front,c,back,by rw [hlist]; rfl,?_,?_,fun front' c' back' hsplit => hhead hsplit hfront⟩
        · rw [← hcons]
          exact hfail
        · rw [hperform, hcons]
    · rw [if_neg hfirst]
      refine Or.inr ⟨[],first,list,rfl,?_,?_,?_⟩
      · rw [List.append_nil]
        exact hfirst
      · rw [List.append_nil]
      · intro front' c' back' hnil
        exact absurd hnil.symm (List.append_ne_nil_of_right_ne_nil _ (List.cons_ne_nil _ _))

theorem perform_append (h : Handlers) (a b calls : List Call) : perform h (a ++ b) calls =
    if (perform h a calls).2 = success then perform h b (perform h a calls).1 else perform h a calls := by
  induction a generalizing calls with
  | nil => rw [List.nil_append, perform, if_pos rfl]
  | cons c a ih =>
    rw [List.cons_append, perform, perform]
    by_cases hc : h.call calls c = success
    · rw [if_pos hc, if_pos hc]
      exact ih _
    · rw [if_neg hc, if_neg hc, if_neg hc]

theorem perform_singleton (h : Handlers) (c : Call) (calls : List Call) :
    perform h [c] calls = (calls ++ [c],h.call calls c) := by
  rw [perform]
  by_cases hc : h.call calls c = success
  · rw [if_pos hc, perform, hc]
  · rw [if_neg hc]

theorem perform_extends (h : Handlers) (list calls : List Call) : calls <+: (perform h list calls).1 := by
  rcases perform_cases h list calls with ⟨hperform,-⟩ | ⟨front,c,back,-,-,hperform,-⟩
  · rw [hperform]
    exact List.prefix_append _ _
  · rw [hperform, List.append_assoc]
    exact List.prefix_append _ _

def performAll (h : Handlers) : List Call → WhistStatus → List Call → WhistStatus × List Call
  | [], ret, calls => (ret,calls)
  | c :: rest, _, calls => performAll h rest (h.call calls c) (calls ++ [c])

theorem performAll_snd (list : List Call) (ret : WhistStatus) (calls : List Call) :
    (performAll h list ret calls).2 = calls ++ list := by
  induction list generalizing ret calls with
  | nil => rw [performAll, List.append_nil]
  | cons c list ih => rw [performAll, ih, List.append_assoc, List.singleton_append]

theorem performAll_concat (front : List Call) (c : Call) (ret : WhistStatus) (calls : List Call) :
    (performAll h (front ++ [c]) ret calls).1 = h.call (calls ++ front) c := by
  induction front generalizing ret calls with
  | nil => rw [List.nil_append, performAll, performAll, List.append_nil]
  | cons d front ih => rw [List.cons_append, performAll, ih, List.append_assoc, List.singleton_append]

theorem performAll_of_success {list calls : List Call}
    (hall : ∀ front c back, list = front ++ c :: back → h.call (calls ++ front) c = success) :
    (performAll h list success calls).1 = success := by
  rcases List.eq_nil_or_concat list with rfl | ⟨front,c,rfl⟩
  · rfl
  · rw [List.concat_eq_append, performAll_concat]
    exact hall front c [] (List.concat_eq_append)

def Reading.flow (word : Reading) (h : Handlers) (calls : List Call) : Flow :=
  let done := perform h word.calls calls
  if done.2 ≠ success then .failed done.1 done.2
  else
    match word.error with
    | some status => .failed done.1 status
    | none => .next done.1 word.skip

theorem flow_call (opt : WhistCommandLineOption) (value : Option Word) (skip : Bool) (calls : List Call) :
    (Reading.call opt value skip).flow h calls =
      .ofStatus (h.call calls (.option opt value),calls ++ [.option opt value]) skip := by
  unfold Reading.flow Reading.call Flow.ofStatus
  dsimp only
  rw [perform_singleton]
  dsimp only
  by_cases hc : h.call calls (.option opt value) = success
  · rw [if_neg (not_not.mpr hc), if_pos hc]
  · rw [if_pos hc, if_neg hc]

theorem flow_fail (status : WhistStatus) (calls : List Call) : (Reading.fail status).flow h calls = .failed calls status := by
  unfold Reading.flow Reading.fail
  rfl

theorem callOptionHandler_eq {opt : WhistCommandLineOption} {value : Option Word} (calls : List Call)
    (hvalue : opt.requiredArgument = false ∨ value ≠ none) : callOptionHandler h calls opt value =
      (h.call calls (.option opt value),calls ++ [.option opt value]) := by
  unfold callOptionHandler
  refine if_neg ?_
  rintro ⟨hrequired,hnone⟩
  rcases hvalue with hvalue | hvalue
  · rw [hrequired] at hvalue
    cases hvalue
  · exact hvalue hnone

theorem findLongOption_eq_onlyMatch (options : List WhistCommandLineOption) (name : Word) :
    findLongOption name options none = onlyMatch options name := by
  apply Option.ext
  intro opt
  rw [findLongOption_eq_some_iff, onlyMatch]
  constructor
  · intro hfound
    rw [hfound]
    rfl
  · intro honly
    split_ifs at honly with hlength
    obtain ⟨found,hfound⟩ := List.length_eq_one_iff.mp hlength
    rw [hfound, List.head?_cons, Option.some.injEq] at honly
    rw [hfound, honly]

theorem startsWith_self {opt : WhistCommandLineOption} {name : Word} (hname : opt.longOption = some name) :
    opt.startsWith name = true := by
  unfold WhistCommandLineOption.startsWith
  rw [hname]
  exact List.isPrefixOf_iff_prefix.mpr (List.prefix_refl _)

theorem findLongOption_eq_select {name : Word} (hs : ¬Shadowed options name) :
    findLongOption name options none = select options name := by
  rw [findLongOption_eq_onlyMatch, select]
  cases hfind : options.find? (fun opt => opt.longOption = some name) with
  | none => rfl
  | some opt =>
    have hname : opt.longOption = some name := of_decide_eq_true (List.find?_some (p := fun opt : WhistCommandLineOption => decide (opt.longOption = some name)) hfind)
    have hmem := List.mem_of_find?_eq_some hfind
    have hlength : (options.filter fun opt => opt.startsWith name).length = 1 := by
      by_contra hlength
      exact hs ⟨⟨opt,hmem,hname⟩,hlength⟩
    have hin : opt ∈ options.filter fun opt => opt.startsWith name :=
      List.mem_filter.mpr ⟨hmem,startsWith_self hname⟩
    obtain ⟨found,hfound⟩ := List.length_eq_one_iff.mp hlength
    rw [hfound, List.mem_singleton] at hin
    unfold onlyMatch
    dsimp only
    rw [if_pos hlength, hfound, hin]
    rfl

theorem findLongOption_of_shadowed {name : Word} (hs : Shadowed options name) :
    findLongOption name options none = none ∧ ∃ opt, select options name = some opt := by
  obtain ⟨⟨opt,hmem,hname⟩,hlength⟩ := hs
  constructor
  · rw [findLongOption_eq_onlyMatch]
    exact if_neg hlength
  · unfold select
    cases hfind : options.find? (fun opt => opt.longOption = some name) with
    | some opt => exact ⟨opt,rfl⟩
    | none => exact absurd (decide_eq_true hname) (List.find?_eq_none.mp hfind opt hmem)

theorem parseLong_eq {following : Option Word} {text : Word} (hs : ¬Shadowed options (splitName text).1)
    (calls : List Call) : parseLong options h following text calls = (readLong options following text).flow h calls := by
  unfold parseLong readLong
  rw [findLongOption_eq_select hs]
  cases select options (splitName text).1 with
  | none => exact (flow_fail _ _).symm
  | some opt =>
    dsimp only
    cases hrequired : opt.requiredArgument with
    | true =>
      cases (splitName text).2 with
      | some value =>
        dsimp only
        rw [if_pos rfl, if_pos (Or.inl rfl), flow_call, callOptionHandler_eq calls (Or.inr (by rintro ⟨⟩))]
      | none =>
        dsimp only
        rw [if_pos rfl, if_pos rfl]
        cases following with
        | none => exact (flow_fail _ _).symm
        | some value =>
          dsimp only
          rw [flow_call, callOptionHandler_eq calls (Or.inr (by rintro ⟨⟩))]
    | false =>
      rw [if_neg Bool.false_ne_true]
      cases hvalue : (splitName text).2 with
      | some value =>
        dsimp only
        cases hoptional : opt.optionalArgument with
        | true =>
          rw [if_pos ⟨rfl,Or.inl rfl⟩, if_pos (Or.inr rfl), flow_call, callOptionHandler_eq calls (Or.inr (by rintro ⟨⟩))]
        | false =>
          rw [if_neg (fun hand => Bool.false_ne_true hand.1), if_neg (fun hor => hor.elim Bool.false_ne_true Bool.false_ne_true),
            flow_fail]
      | none =>
        dsimp only
        rw [if_neg Bool.false_ne_true]
        by_cases hoptional : opt.optionalArgument = true ∧ (plainWord following).isSome = true
        · rw [if_pos ⟨hoptional.1,Or.inr hoptional.2⟩, if_pos hoptional, flow_call,
            callOptionHandler_eq calls (Or.inl hrequired)]
        · rw [if_neg hoptional, if_neg (fun hand => hoptional ⟨hand.1,hand.2.resolve_left Bool.false_ne_true⟩), flow_call,
            callOptionHandler_eq calls (Or.inl hrequired)]

theorem readLong_of_select {following : Option Word} {text : Word} {opt : WhistCommandLineOption}
    (hselect : select options (splitName text).1 = some opt) : (∃ c, (readLong options following text).calls = [c] ∧
      (readLong options following text).error = none) ∨ readLong options following text = .fail errorSyntax := by
  unfold readLong
  rw [hselect]
  dsimp only
  cases (splitName text).2 with
  | some value =>
    dsimp only
    split_ifs
    · exact Or.inl ⟨_,rfl,rfl⟩
    · exact Or.inr rfl
  | none =>
    dsimp only
    split_ifs
    · cases following with
      | none => exact Or.inr rfl
      | some value => exact Or.inl ⟨_,rfl,rfl⟩
    · exact Or.inl ⟨_,rfl,rfl⟩
    · exact Or.inl ⟨_,rfl,rfl⟩

theorem parseShorts_eq (following : Option Word) (text : Word) (ret : WhistStatus) (calls : List Call) :
    parseShorts options h following text ret calls =
      let word := readShorts options following text
      let done := performAll h word.calls ret calls
      match word.error with
      | some status => .failed done.2 status
      | none => .ofStatus done word.skip := by
  induction text generalizing ret calls with
  | nil => rfl
  | cons c rest ih =>
    cases hfind : findShortOption options c with
    | none =>
      rw [parseShorts, readShorts, hfind]
      rfl
    | some opt =>
      generalize hparse : parseShorts options h following (c :: rest) ret calls = flow
      generalize hread : readShorts options following (c :: rest) = word
      rw [parseShorts, hfind] at hparse
      rw [readShorts, hfind] at hread
      dsimp only at hparse hread
      by_cases hrequired : opt.requiredArgument = true
      · rw [if_pos hrequired] at hparse
        by_cases hrest : rest ≠ []
        · rw [if_pos hrest, callOptionHandler_eq calls (Or.inr (by rintro ⟨⟩))] at hparse
          rw [if_pos ⟨Or.inl hrequired,hrest⟩] at hread
          rw [← hparse, ← hread]
          rfl
        · rw [if_neg hrest] at hparse
          rw [if_neg (fun hand => hrest hand.2), if_pos hrequired] at hread
          rw [← hparse, ← hread]
          cases following with
          | none => rfl
          | some value =>
            dsimp only
            rw [callOptionHandler_eq calls (Or.inr (by rintro ⟨⟩))]
            rfl
      · have hno : opt.requiredArgument = false := Bool.eq_false_iff.mpr hrequired
        rw [if_neg hrequired] at hparse
        by_cases hrest : opt.optionalArgument = true ∧ rest ≠ []
        · rw [if_pos hrest, callOptionHandler_eq calls (Or.inl hno)] at hparse
          rw [if_pos ⟨Or.inr hrest.1,hrest.2⟩] at hread
          rw [← hparse, ← hread]
          rfl
        · rw [if_neg hrest] at hparse
          rw [if_neg (fun hand => hrest ⟨hand.1.resolve_left hrequired,hand.2⟩), if_neg hrequired] at hread
          by_cases hplain : opt.optionalArgument = true ∧ (plainWord following).isSome = true
          · rw [if_pos hplain, callOptionHandler_eq calls (Or.inl hno)] at hparse
            rw [if_pos hplain] at hread
            rw [← hparse, ← hread]
            rfl
          · rw [if_neg hplain, callOptionHandler_eq calls (Or.inl hno)] at hparse
            rw [if_neg hplain] at hread
            rw [← hparse, ← hread, ih]
            rfl

variable (options h)

def Flow.resume (position : ℕ) (rest : List Word) : Flow → Result
  | .next calls skip => parseWords options h position skip rest calls
  | .failed calls status => finish calls status
  | .operands calls => if showsUsage calls then (calls,.exited) else parseOperands h position rest calls
  | .crashed calls => (calls,.crashed)

def Flow.follow (position : ℕ) (rest : List Word) : Flow → Result
  | .next calls skip => meaning h calls (grammar options h position skip rest)
  | .failed calls status => finish calls status
  | .operands calls => (calls,.crashed)
  | .crashed calls => (calls,.crashed)

variable {options h}

theorem parseWords_cons (position : ℕ) (arg : Word) (rest : List Word) (calls : List Call) :
    parseWords options h position false (arg :: rest) calls =
      (parseWord options h position arg rest.head? calls).resume options h (position + 1) rest := by
  rw [parseWords]
  cases parseWord options h position arg rest.head? calls <;> rfl

theorem meaning_of_failure {calls : List Call} {g : Grammar} (hfail : (perform h g.calls calls).2 ≠ success) :
    meaning h calls g = finish (perform h g.calls calls).1 (perform h g.calls calls).2 := by
  unfold meaning finish
  dsimp only
  by_cases hshow : showsUsage (perform h g.calls calls).1 = true
  · rw [if_pos hshow, if_pos hshow]
  · rw [if_neg hshow, if_neg hshow, if_pos hfail]

theorem meaning_cons {arg : Word} (harg : arg ≠ ['-','-']) (position : ℕ) (rest : List Word) (calls : List Call) :
    meaning h calls (grammar options h position false (arg :: rest)) =
      ((readWord options h position arg rest.head?).flow h calls).follow options h (position + 1) rest := by
  rw [grammar, if_neg harg]
  generalize readWord options h position arg rest.head? = word
  dsimp only
  unfold Reading.flow
  dsimp only
  by_cases hok : (perform h word.calls calls).2 = success
  · rw [if_neg (not_not.mpr hok)]
    cases herror : word.error with
    | some status =>
      dsimp only
      unfold meaning Flow.follow finish
      dsimp only
      rw [if_neg (not_not.mpr hok)]
      by_cases hshow : showsUsage (perform h word.calls calls).1 = true
      · rw [if_pos hshow, if_pos hshow]
      · rw [if_neg hshow, if_neg hshow]
    | none =>
      dsimp only
      unfold Flow.follow meaning
      dsimp only
      rw [perform_append, if_pos hok]
  · rw [if_pos hok]
    cases herror : word.error with
    | some status => exact meaning_of_failure hok
    | none =>
      dsimp only
      have hsame := perform_append h word.calls (grammar options h (position + 1) word.skip rest).calls calls
      rw [if_neg hok] at hsame
      have hfail := @meaning_of_failure h calls
        { grammar options h (position + 1) word.skip rest with
          calls := word.calls ++ (grammar options h (position + 1) word.skip rest).calls }
      dsimp only at hfail
      rw [hsame] at hfail
      exact hfail hok

def Flow.calls : Flow → List Call
  | .next calls _ => calls
  | .failed calls _ => calls
  | .operands calls => calls
  | .crashed calls => calls

theorem flow_extends (word : Reading) (calls : List Call) : calls <+: (word.flow h calls).calls := by
  have hextends := perform_extends h word.calls calls
  unfold Reading.flow
  dsimp only
  by_cases hok : (perform h word.calls calls).2 = success
  · rw [if_neg (not_not.mpr hok)]
    cases word.error <;> exact hextends
  · rw [if_pos hok]
    exact hextends

theorem calls_ofStatus (ret : WhistStatus × List Call) (skip : Bool) : (Flow.ofStatus ret skip).calls = ret.2 := by
  unfold Flow.ofStatus
  by_cases hok : ret.1 = success
  · rw [if_pos hok]
    rfl
  · rw [if_neg hok]
    rfl

theorem calls_parseShorts (following : Option Word) (text : Word) (calls : List Call) :
    (parseShorts options h following text success calls).calls = calls ++ (readShorts options following text).calls := by
  rw [parseShorts_eq]
  dsimp only
  cases (readShorts options following text).error with
  | some status => exact performAll_snd _ _ _
  | none =>
    dsimp only
    rw [calls_ofStatus, performAll_snd]

theorem parseWord_shorts {c : Char} (hc : c ≠ '-') (position : ℕ) (rest : Word) (following : Option Word)
    (calls : List Call) : parseWord options h position ('-' :: c :: rest) following calls =
      parseShorts options h following (c :: rest) success calls := by
  unfold parseWord
  split
  · rename_i heq
    cases heq
    exact absurd rfl hc
  · rename_i heq
    cases heq
    exact absurd rfl hc
  · rename_i heq
    cases heq
    rfl
  · rename_i hother
    exact absurd rfl (hother c rest)

theorem parseWord_operand {arg : Word} (harg : ∀ c rest, arg ≠ '-' :: c :: rest) (position : ℕ) (following : Option Word)
    (calls : List Call) : parseWord options h position arg following calls = parseOperand h position arg calls := by
  unfold parseWord
  split
  · exact absurd rfl (harg _ _)
  · exact absurd rfl (harg _ _)
  · exact absurd rfl (harg _ _)
  · rfl

theorem word_cases (arg : Word) : arg = ['-','-'] ∨ (∃ c text, arg = '-' :: '-' :: c :: text) ∨
    (∃ c rest, arg = '-' :: c :: rest ∧ c ≠ '-') ∨ ∀ c rest, arg ≠ '-' :: c :: rest := by
  by_cases hoption : ∃ c rest, arg = '-' :: c :: rest
  · obtain ⟨c,rest,rfl⟩ := hoption
    by_cases hc : c = '-'
    · rw [hc]
      cases rest with
      | nil => exact Or.inl rfl
      | cons d text => exact Or.inr (Or.inl ⟨d,text,rfl⟩)
    · exact Or.inr (Or.inr (Or.inl ⟨c,rest,rfl,hc⟩))
  · exact Or.inr (Or.inr (Or.inr fun c rest heq => hoption ⟨c,rest,heq⟩))

theorem parseWord_extends (position : ℕ) (arg : Word) (following : Option Word) (calls : List Call) :
    calls <+: (parseWord options h position arg following calls).calls := by
  rcases word_cases arg with rfl | ⟨c,text,rfl⟩ | ⟨c,rest,rfl,hc⟩ | harg
  · exact List.prefix_refl _
  · change calls <+: (parseLong options h following (c :: text) calls).calls
    by_cases hs : Shadowed options (splitName (c :: text)).1
    · unfold parseLong
      rw [(findLongOption_of_shadowed hs).1]
      exact List.prefix_refl _
    · rw [parseLong_eq hs]
      exact flow_extends _ _
  · rw [parseWord_shorts hc, calls_parseShorts]
    exact List.prefix_append _ _
  · rw [parseWord_operand harg]
    unfold parseOperand
    split_ifs
    · rw [calls_ofStatus]
      exact List.prefix_append _ _
    · exact List.prefix_refl _

theorem parseOperands_extends (position : ℕ) (rest : List Word) (calls : List Call) :
    calls <+: (parseOperands h position rest calls).1 := by
  induction rest generalizing position calls with
  | nil => exact List.prefix_refl _
  | cons arg rest ih =>
    rw [parseOperands]
    dsimp only
    split_ifs
    · exact (List.prefix_append _ _).trans (ih _ _)
    · exact List.prefix_append _ _
    · exact List.prefix_refl _

theorem parseWords_extends (position : ℕ) (skip : Bool) (words : List Word) (calls : List Call) :
    calls <+: (parseWords options h position skip words calls).1 := by
  induction words generalizing position skip calls with
  | nil => cases skip <;> exact List.prefix_refl _
  | cons arg rest ih =>
    cases skip with
    | true => exact ih _ _ _
    | false =>
      have hword := @parseWord_extends options h position arg rest.head? calls
      rw [parseWords_cons]
      cases hflow : parseWord options h position arg rest.head? calls with
      | next done skip =>
        rw [hflow] at hword
        exact hword.trans (ih _ _ _)
      | failed done status =>
        rw [hflow] at hword
        exact hword
      | operands done =>
        rw [hflow] at hword
        rw [Flow.resume]
        by_cases hshow : showsUsage done = true
        · rw [if_pos hshow]
          exact hword
        · rw [if_neg hshow]
          exact hword.trans (parseOperands_extends _ _ _)
      | crashed done =>
        rw [hflow] at hword
        exact hword

theorem meaning_extends (calls : List Call) (g : Grammar) : calls <+: (meaning h calls g).1 := by
  have hdone := perform_extends h g.calls calls
  unfold meaning
  dsimp only
  by_cases hshow : showsUsage (perform h g.calls calls).1 = true
  · rw [if_pos hshow]
    exact hdone
  rw [if_neg hshow]
  by_cases hfail : (perform h g.calls calls).2 ≠ success
  · rw [if_pos hfail]
    exact hdone
  rw [if_neg hfail]
  cases g.error with
  | some status => exact hdone
  | none =>
    dsimp only
    split_ifs
    · exact hdone.trans (perform_extends h _ _)
    · exact hdone

theorem follow_extends (position : ℕ) (rest : List Word) (flow : Flow) :
    flow.calls <+: (flow.follow options h position rest).1 := by
  cases flow with
  | next calls skip => exact meaning_extends _ _
  | failed calls status => exact List.prefix_refl _
  | operands calls => exact List.prefix_refl _
  | crashed calls => exact List.prefix_refl _

theorem resume_extends (position : ℕ) (rest : List Word) (flow : Flow) :
    flow.calls <+: (flow.resume options h position rest).1 := by
  cases flow with
  | next calls skip => exact parseWords_extends _ _ _ _
  | failed calls status => exact List.prefix_refl _
  | operands calls =>
    rw [Flow.resume]
    by_cases hshow : showsUsage calls = true
    · rw [if_pos hshow]
      exact List.prefix_refl _
    · rw [if_neg hshow]
      exact parseOperands_extends _ _ _
  | crashed calls => exact List.prefix_refl _

theorem finish_eq_iff (calls : List Call) (a b : WhistStatus) :
    finish calls a = finish calls b ↔ a = b ∨ showsUsage calls = true := by
  unfold finish
  rw [Prod.mk.injEq]
  by_cases hshow : showsUsage calls = true
  · rw [if_pos hshow, if_pos hshow]
    exact iff_of_true ⟨rfl,rfl⟩ (Or.inr hshow)
  · rw [if_neg hshow, if_neg hshow, Outcome.returned.injEq]
    constructor
    · exact fun heq => Or.inl heq.2
    · exact fun heq => ⟨rfl,heq.resolve_right hshow⟩

theorem perform_operandCalls (htakes : h.takesOperands = true) (position : ℕ) (rest : List Word) (calls : List Call) :
    parseOperands h position rest calls = ((perform h (operandCalls position rest) calls).1,
      .returned (perform h (operandCalls position rest) calls).2) := by
  induction rest generalizing position calls with
  | nil => rfl
  | cons arg rest ih =>
    have hcons : operandCalls position (arg :: rest) = .operand position arg :: operandCalls (position + 1) rest := by
      unfold operandCalls
      rw [List.mapIdx_cons]
      congr 1
      apply congrArg (fun f => List.mapIdx f rest)
      funext i word
      rw [Nat.add_assoc, Nat.add_comm 1 i]
    rw [hcons, parseOperands, perform, if_pos htakes]
    by_cases hok : h.call calls (.operand position arg) = success
    · rw [if_pos hok, if_pos hok]
      exact ih _ _
    · rw [if_neg hok, if_neg hok]

/-- Behind `--` only a missing handler makes a difference. -/
theorem operands_iff (position : ℕ) (rest : List Word) (calls : List Call) :
    (Flow.operands calls).resume options h position rest = meaning h calls ⟨[],none,operandCalls position rest⟩ ↔
      rest = [] ∨ h.takesOperands = true ∨ showsUsage calls = true := by
  rw [Flow.resume]
  unfold meaning
  dsimp only
  rw [perform]
  dsimp only
  by_cases hshow : showsUsage calls = true
  · rw [if_pos hshow, if_pos hshow]
    exact iff_of_true rfl (Or.inr (Or.inr hshow))
  rw [if_neg hshow, if_neg hshow, if_neg (not_not.mpr rfl)]
  by_cases htakes : h.takesOperands = true
  · rw [if_pos (Or.inr htakes), perform_operandCalls htakes]
    exact iff_of_true rfl (Or.inr (Or.inl htakes))
  cases rest with
  | nil =>
    have hnil : operandCalls position [] = [] := rfl
    rw [hnil, if_pos (Or.inl rfl)]
    exact iff_of_true rfl (Or.inl rfl)
  | cons arg rest =>
    have hne : operandCalls position (arg :: rest) ≠ [] := by
      unfold operandCalls
      rw [List.mapIdx_cons]
      exact List.cons_ne_nil _ _
    rw [if_neg (fun hor => hor.elim hne htakes), parseOperands, if_neg htakes]
    refine iff_of_false (by rintro ⟨⟩) ?_
    rintro (hnil | htakes' | hshow')
    · cases hnil
    · exact htakes htakes'
    · exact hshow hshow'

section Word
variable {position : ℕ} {rest : List Word} {calls : List Call} {word : Reading}
  (ih : ∀ skip calls, parseWords options h position skip rest calls =
    meaning h calls (grammar options h position skip rest) ↔ Safe options h position skip rest calls)

include ih

theorem flow_iff : (word.flow h calls).resume options h position rest = (word.flow h calls).follow options h position rest ↔
    (word.error = none → (perform h word.calls calls).2 = success →
      Safe options h position word.skip rest (calls ++ word.calls)) := by
  unfold Reading.flow
  dsimp only
  by_cases hok : (perform h word.calls calls).2 = success
  · rw [if_neg (not_not.mpr hok)]
    cases herror : word.error with
    | some status => exact iff_of_true rfl (by rintro ⟨⟩)
    | none =>
      have hdone : (perform h word.calls calls).1 = calls ++ word.calls := by
        rcases perform_cases h word.calls calls with ⟨hperform,-⟩ | ⟨front,c,back,-,hfail,hperform,-⟩
        · rw [hperform]
        · rw [hperform] at hok
          exact absurd hok hfail
      dsimp only
      rw [Flow.resume, Flow.follow, ih, hdone]
      exact ⟨fun hsafe _ _ => hsafe,fun hsafe => hsafe rfl hok⟩
  · rw [if_pos hok]
    exact iff_of_true rfl fun _ hok' => absurd hok' hok

theorem long_iff (c : Char) (text : Word) (following : Option Word) :
    (parseLong options h following (c :: text) calls).resume options h position rest =
      ((readLong options following (c :: text)).flow h calls).follow options h position rest ↔
    (Shadowed options (splitName (c :: text)).1 →
        (readLong options following (c :: text)).calls = [] ∧ showsUsage calls = true) ∧
      ((readLong options following (c :: text)).error = none →
        (perform h (readLong options following (c :: text)).calls calls).2 = success →
          Safe options h position (readLong options following (c :: text)).skip rest
            (calls ++ (readLong options following (c :: text)).calls)) := by
  by_cases hs : Shadowed options (splitName (c :: text)).1
  · obtain ⟨hnone,opt,hselect⟩ := findLongOption_of_shadowed hs
    have hparse : parseLong options h following (c :: text) calls = .failed calls notFound := by
      unfold parseLong
      rw [hnone]
    rw [hparse, Flow.resume]
    rcases @readLong_of_select options following (c :: text) opt hselect with ⟨d,hcalls,herror⟩ | hread
    · -- the grammar has a call that the code does not make
      refine iff_of_false ?_ ?_
      · intro heq
        have hextends := @follow_extends options h position rest ((readLong options following (c :: text)).flow h calls)
        rw [← heq] at hextends
        have hlength := hextends.length_le
        unfold Reading.flow at hlength
        dsimp only at hlength
        rw [hcalls, perform_singleton, herror] at hlength
        dsimp only at hlength
        split_ifs at hlength
        · simp [Flow.calls, finish] at hlength
        · simp [Flow.calls, finish] at hlength
      · rintro ⟨hsafe,-⟩
        rw [hcalls] at hsafe
        cases (hsafe hs).1
    · rw [hread, flow_fail, Flow.follow, finish_eq_iff]
      have hne : notFound ≠ errorSyntax := by decide
      constructor
      · intro hor
        exact ⟨fun _ => ⟨rfl,hor.resolve_left hne⟩,by rintro ⟨⟩⟩
      · rintro ⟨hsafe,-⟩
        exact Or.inr (hsafe hs).2
  · rw [parseLong_eq hs, flow_iff ih]
    exact (and_iff_right fun hs' => absurd hs' hs).symm

theorem operand_iff (number : ℕ) (arg : Word) :
    (parseOperand h number arg calls).resume options h position rest =
      ((readOperand h number arg).flow h calls).follow options h position rest ↔
    h.takesOperands = true ∧ ((readOperand h number arg).error = none →
      (perform h (readOperand h number arg).calls calls).2 = success →
        Safe options h position (readOperand h number arg).skip rest (calls ++ (readOperand h number arg).calls)) := by
  by_cases htakes : h.takesOperands = true
  · have hflow : parseOperand h number arg calls = (readOperand h number arg).flow h calls := by
      unfold parseOperand readOperand Reading.flow Flow.ofStatus
      rw [if_pos htakes, if_pos htakes]
      dsimp only
      rw [perform_singleton]
      by_cases hok : h.call calls (.operand number arg) = success
      · rw [if_pos hok, if_neg (not_not.mpr hok)]
      · rw [if_neg hok, if_pos hok]
    rw [hflow, flow_iff ih]
    exact (and_iff_right htakes).symm
  · refine iff_of_false ?_ fun hand => htakes hand.1
    unfold parseOperand readOperand
    rw [if_neg htakes, if_neg htakes, flow_fail, Flow.resume, Flow.follow]
    intro heq
    have hsnd := congrArg Prod.snd heq
    unfold finish at hsnd
    dsimp only at hsnd
    split_ifs at hsnd

theorem group_iff (following : Option Word) (text : Word) :
    (parseShorts options h following text success calls).resume options h position rest =
      ((readShorts options following text).flow h calls).follow options h position rest ↔
    GroupSafe h calls (readShorts options following text) ∧ ((readShorts options following text).error = none →
      (perform h (readShorts options following text).calls calls).2 = success →
        Safe options h position (readShorts options following text).skip rest
          (calls ++ (readShorts options following text).calls)) := by
  have hall := @calls_parseShorts options h following text calls
  have hparse := @parseShorts_eq options h following text success calls
  generalize parseShorts options h following text success calls = flow at *
  generalize readShorts options following text = word at *
  dsimp only at hparse
  have hnil : ∀ {front : List Call} {c : Call} {back : List Call}, [] ≠ front ++ c :: back :=
    fun heq => List.append_ne_nil_of_right_ne_nil _ (List.cons_ne_nil _ _) heq.symm
  rcases perform_cases h word.calls calls with ⟨hperform,hsuccess⟩ | ⟨front,c,back,hcalls,hfail,hperform,hfront⟩
  · have hflow : flow = word.flow h calls := by
      rw [hparse]
      unfold Reading.flow Flow.ofStatus
      dsimp only
      rw [hperform, performAll_snd, performAll_of_success hsuccess, if_neg (not_not.mpr rfl), if_pos rfl]
    rw [hflow, flow_iff ih]
    exact (and_iff_right fun front c back hsplit hfail => absurd (hsuccess front c back hsplit) hfail).symm
  have hstop : word.flow h calls = .failed (calls ++ front ++ [c]) (h.call (calls ++ front) c) := by
    unfold Reading.flow
    dsimp only
    rw [hperform, if_pos hfail]
  have hno : ¬(perform h word.calls calls).2 = success := by
    rw [hperform]
    exact hfail
  by_cases hback : back = []
  · -- the last call of the group has failed
    rw [hback] at hcalls
    have hdone : calls ++ front ++ [c] = calls ++ word.calls := by rw [hcalls, List.append_assoc]
    have hlast : performAll h word.calls success calls = (h.call (calls ++ front) c,calls ++ word.calls) := by
      apply Prod.ext
      · rw [hcalls, performAll_concat]
      · rw [performAll_snd]
    have honly : ∀ front' c' back', word.calls = front' ++ c' :: back' → h.call (calls ++ front') c' ≠ success →
        front' = front ∧ c' = c ∧ back' = [] := by
      intro front' c' back' hsplit hfail'
      rcases List.eq_nil_or_concat back' with rfl | ⟨middle,last,rfl⟩
      · rw [hcalls] at hsplit
        obtain ⟨hfronts,hlasts⟩ := List.append_inj' hsplit rfl
        exact ⟨hfronts.symm,(List.cons.inj hlasts).1.symm,rfl⟩
      · rw [hcalls, List.concat_eq_append] at hsplit
        have hsplit' : front ++ [c] = (front' ++ c' :: middle) ++ [last] := by
          rw [hsplit, List.append_assoc]
          rfl
        exact absurd (hfront front' c' middle (List.append_inj' hsplit' rfl).1) hfail'
    rw [hlast] at hparse
    cases herror : word.error with
    | none =>
      rw [herror] at hparse
      have hflow : flow = word.flow h calls := by
        rw [hparse, hstop, hdone]
        exact if_neg hfail
      rw [hflow]
      refine iff_of_true (by rw [hstop]; rfl) ⟨?_,fun _ hok => absurd hok hno⟩
      intro front' c' back' hsplit hfail'
      refine ⟨(honly front' c' back' hsplit hfail').2.2,?_⟩
      intro status hstatus
      rw [herror] at hstatus
      cases hstatus
    | some status =>
      rw [herror] at hparse
      rw [hparse, hstop, hdone, Flow.resume, Flow.follow, finish_eq_iff]
      constructor
      · intro hor
        refine ⟨?_,by rintro ⟨⟩⟩
        intro front' c' back' hsplit hfail'
        obtain ⟨rfl,rfl,rfl⟩ := honly front' c' back' hsplit hfail'
        refine ⟨rfl,?_⟩
        intro status' hstatus
        rw [herror] at hstatus
        cases hstatus
        exact hor
      · rintro ⟨hsafe,-⟩
        exact (hsafe front c [] hcalls hfail).2 status herror
  · -- the code goes on with the group
    refine iff_of_false ?_ fun hand => hback (hand.1 front c back hcalls hfail).1
    intro heq
    have hextends := @resume_extends options h position rest flow
    rw [heq, hstop, hall, Flow.follow, hcalls] at hextends
    have hlength := hextends.length_le
    have hpos := List.length_pos_of_ne_nil hback
    simp only [finish, List.length_append, List.length_cons, List.length_nil] at hlength
    omega

end Word

theorem parseWords_eq_iff (options : List WhistCommandLineOption) (h : Handlers) (position : ℕ) (skip : Bool)
    (words : List Word) (calls : List Call) : parseWords options h position skip words calls =
      meaning h calls (grammar options h position skip words) ↔ Safe options h position skip words calls := by
  induction words generalizing position skip calls with
  | nil =>
    have hempty : meaning h calls ⟨[],none,[]⟩ = finish calls success := by
      unfold meaning finish
      dsimp only
      rw [perform]
      dsimp only
      by_cases hshow : showsUsage calls = true
      · rw [if_pos hshow, if_pos hshow]
      · rw [if_neg hshow, if_neg hshow, if_neg (not_not.mpr rfl), if_pos (Or.inl rfl), perform]
    cases skip <;> exact iff_of_true hempty.symm trivial
  | cons arg rest ih =>
    cases skip with
    | true => exact ih _ _ _
    | false =>
      have hrest := fun skip calls => ih (position + 1) skip calls
      by_cases hends : arg = ['-','-']
      · rw [parseWords_cons, hends, grammar, if_pos rfl, Safe, if_pos rfl]
        exact operands_iff _ _ _
      rw [parseWords_cons, meaning_cons hends, Safe, if_neg hends]
      rcases word_cases arg with harg | ⟨c,text,rfl⟩ | ⟨c,text,rfl,hc⟩ | harg
      · exact absurd harg hends
      · exact long_iff hrest c text rest.head?
      · have hsafe : ∀ word, WordSafe options h ('-' :: c :: text) calls word ↔ GroupSafe h calls word := by
          intro word
          unfold WordSafe
          split
          · rename_i heq
            cases heq
            exact absurd rfl hc
          · exact Iff.rfl
          · rename_i hother
            exact absurd rfl (hother _ _)
        have hread : readWord options h position ('-' :: c :: text) rest.head? =
            readShorts options rest.head? (c :: text) := by
          unfold readWord
          split
          · rename_i heq
            cases heq
            exact absurd rfl hc
          · rename_i heq
            cases heq
            rfl
          · rename_i hother
            exact absurd rfl (hother _ _)
        dsimp only
        rw [parseWord_shorts hc, hread, hsafe]
        exact group_iff hrest rest.head? (c :: text)
      · have hsafe : ∀ word, WordSafe options h arg calls word ↔ h.takesOperands = true := by
          intro word
          unfold WordSafe
          split
          · exact absurd rfl (harg _ _)
          · exact absurd rfl (harg _ _)
          · exact Iff.rfl
        have hread : readWord options h position arg rest.head? = readOperand h position arg := by
          unfold readWord
          split
          · exact absurd rfl (harg _ _)
          · exact absurd rfl (harg _ _)
          · rfl
        dsimp only
        rw [parseWord_operand harg, hread, hsafe]
        exact operand_iff hrest position arg

/-- The code follows the grammar exactly when all words that it comes to are safe. -/
theorem followsGrammar_iff (registered : List WhistCommandLineOption) (h : Handlers) (argv : List Word) :
    FollowsGrammar registered h argv ↔ Safe (optionList registered) h 1 false argv.tail [] :=
  parseWords_eq_iff _ _ _ _ _ _

/-- No two options have the same name, those for help and version included. -/
def NoDuplicates (registered : List WhistCommandLineOption) : Prop :=
  ((optionList registered).filterMap fun opt => opt.longOption).Nodup ∧
    ((optionList registered).filterMap fun opt => opt.shortOption).Nodup

/-- The first option of a group fails, and the second is called all the same. -/
theorem followsGrammar_fails : ¬∀ (registered : List WhistCommandLineOption) (h : Handlers) (argv : List Word),
    NoDuplicates registered → FollowsGrammar registered h argv := by
  intro hall
  let a : WhistCommandLineOption := ⟨some 'a',some ['a','l','l'],false,false,.registered 0⟩
  let b : WhistCommandLineOption := ⟨some 'b',some ['b','r','i','e','f'],false,false,.registered 1⟩
  let h : Handlers := ⟨fun calls _ => if calls.length = 0 then errorSyntax else success,true⟩
  have heq := hall [a,b] h [['w','h','i','s','t'],['-','a','b']] ⟨by decide,by decide⟩
  have hlength := congrArg (fun r : Result => r.1.length) heq
  revert hlength
  decide

end Whist.CommandLine
