import CommandBinding.Proofs.WrapperRecognition
import Mathlib.Data.List.Infix

/-!
The shape of the texts that are read as wrapped types. The reader goes through a text once and counts brackets; the
shape is said by the names, marks and brackets that the text is made of: ASCII names with `::` between them, and then
an argument in angle brackets in which the depth of the brackets never falls below zero, ends there, and is not zero
at any comma. A text has this shape in one way only.
-/
namespace CommandBinding.CodeText

variable {cs rest segment : List Char} {c : Char} {text head inner element : String} {path other : List String}

/-! The argument. -/

/-- How many more brackets a text opens than it closes. -/
def bracketDepth (cs : List Char) : Int :=
  cs.countP isOpening - cs.countP isClosing

/-- Whether brackets are closed and commas enclosed in a text that stands behind `depth` open brackets. -/
structure IsEnclosedFrom (depth : Int) (cs : List Char) : Prop where
  never_negative : ∀ before, before <+: cs → 0 ≤ depth + bracketDepth before
  closed : depth + bracketDepth cs = 0
  no_outer_comma : ∀ before behind, cs = before ++ ',' :: behind → depth + bracketDepth before ≠ 0

theorem bracketDepth_nil : bracketDepth [] = 0 :=
  rfl

theorem bracketDepth_cons (c : Char) (cs : List Char) : bracketDepth (c :: cs) = bracketDepth [c] + bracketDepth cs := by
  simp only [bracketDepth, List.countP_cons, List.countP_nil]
  omega

theorem IsEnclosedFrom.nonneg {depth : Int} (h : IsEnclosedFrom depth cs) : 0 ≤ depth := by
  simpa [bracketDepth_nil] using h.never_negative [] List.nil_prefix

/-- The first character is enclosed by the brackets that are open, and the others by those and by itself. -/
theorem isEnclosedFrom_cons {depth : Int} : IsEnclosedFrom depth (c :: cs) ↔
    0 ≤ depth ∧ (c = ',' → depth ≠ 0) ∧ IsEnclosedFrom (depth + bracketDepth [c]) cs := by
  have hcons (before : List Char) : depth + bracketDepth (c :: before) = depth + bracketDepth [c] + bracketDepth before := by
    rw [bracketDepth_cons]
    omega
  constructor
  · intro h
    refine ⟨h.nonneg, ?_, ?_, ?_, ?_⟩
    · rintro rfl
      simpa [bracketDepth_nil] using h.no_outer_comma [] cs rfl
    · intro before hbefore
      rw [← hcons]
      exact h.never_negative (c :: before) (List.cons_prefix_cons.mpr ⟨rfl, hbefore⟩)
    · rw [← hcons]
      exact h.closed
    · rintro before behind rfl
      rw [← hcons]
      exact h.no_outer_comma (c :: before) behind rfl
  · rintro ⟨hdepth, hfirst, h⟩
    refine ⟨fun before hbefore => ?_, (hcons cs).trans h.closed, fun before behind heq => ?_⟩
    · rcases List.prefix_cons_iff.mp hbefore with rfl | ⟨more, rfl, hmore⟩
      · simpa [bracketDepth_nil] using hdepth
      · rw [hcons]
        exact h.never_negative more hmore
    · rcases List.cons_eq_append_iff.mp heq with ⟨rfl, hbehind⟩ | ⟨more, rfl, hmore⟩
      · simpa [bracketDepth_nil] using hfirst (List.cons.inj hbehind).1.symm
      · rw [hcons]
        exact h.no_outer_comma more behind hmore

theorem isOneArgument_zero_closing (h : isClosing c = true) (cs : List Char) : isOneArgument 0 (c :: cs) = false := by
  have hclose : (c == '>' || c == ')' || c == ']') = true := h
  have hopen : ¬(c == '<' || c == '(' || c == '[') = true := fun hopen =>
    absurd h (by rw [not_isClosing_of_isOpening hopen]; decide)
  rw [isOneArgument, if_neg hopen, if_pos hclose]
  rfl

/-- The counter of the reader says whether a text is enclosed. -/
theorem isOneArgument_iff (depth : Nat) : isOneArgument depth cs = true ↔ IsEnclosedFrom depth cs := by
  induction cs generalizing depth with
  | nil =>
    have hdepth : isOneArgument depth [] = true ↔ depth = 0 := by simp [isOneArgument]
    rw [hdepth]
    constructor
    · rintro rfl
      exact ⟨fun before hbefore => by simp [List.prefix_nil.mp hbefore, bracketDepth_nil], rfl, by simp⟩
    · intro h
      simpa [bracketDepth_nil] using h.closed
  | cons c cs ih =>
    rw [isEnclosedFrom_cons]
    have hmark : isOpening ',' = false ∧ isClosing ',' = false := by decide
    by_cases hopens : isOpening c = true
    · have hone : bracketDepth [c] = 1 := by simp [bracketDepth, hopens, not_isClosing_of_isOpening hopens]
      have hcomma : c ≠ ',' := fun h => by simp [h, hmark] at hopens
      rw [isOneArgument_opening hopens, ih, hone]
      simp [hcomma]
    by_cases hcloses : isClosing c = true
    · have hone : bracketDepth [c] = -1 := by simp [bracketDepth, hopens, hcloses]
      have hcomma : c ≠ ',' := fun h => by simp [h, hmark] at hcloses
      rw [hone]
      cases depth with
      | zero =>
        rw [isOneArgument_zero_closing hcloses]
        exact ⟨fun h => absurd h Bool.false_ne_true, fun h => absurd h.2.2.nonneg (by decide)⟩
      | succ depth =>
        have hdepth : ((depth + 1 : Nat) : Int) + -1 = depth := by omega
        rw [isOneArgument_closing hcloses, ih, hdepth]
        exact ⟨fun h => ⟨by omega, fun h => absurd h hcomma, h⟩, fun h => h.2.2⟩
    · have hnone : bracketDepth [c] = 0 := by simp [bracketDepth, hopens, hcloses]
      rw [hnone, Int.add_zero]
      by_cases hcomma : c = ',' ∧ depth = 0
      · obtain ⟨rfl, rfl⟩ := hcomma
        simp [isOneArgument]
      · have hinside : c = ',' → (depth : Int) ≠ 0 := fun hc hdepth => hcomma ⟨hc, by exact_mod_cast hdepth⟩
        rw [isOneArgument_cons (by simpa using hopens) (by simpa using hcloses) (by tauto), ih]
        exact ⟨fun h => ⟨h.nonneg, hinside, h⟩, fun h => h.2.2⟩

/-- What a wrapped type holds in its brackets. -/
structure IsArgumentText (cs : List Char) : Prop where
  ne_nil : cs ≠ []
  on_one_line : '\n' ∉ cs
  enclosed : IsEnclosedFrom 0 cs

theorem isInner_iff : IsInner cs ↔ IsArgumentText cs := by
  constructor
  · exact fun h => ⟨h.ne_nil, h.on_one_line, (isOneArgument_iff 0).mp h.one_argument⟩
  · exact fun h => ⟨h.ne_nil, h.on_one_line, (isOneArgument_iff 0).mpr h.enclosed⟩

/-! The names in front. -/

theorem isAsciiName_iff {name : List Char} : isAsciiName (String.ofList name) = true ↔
    ∃ c more, name = c :: more ∧ startsName c = true ∧ ∀ d ∈ more, continuesName d = true := by
  cases name with
  | nil => simp [isAsciiName]
  | cons c more => simp [isAsciiName]

/-- A name grows by characters that may continue it. -/
theorem isAsciiName_concat {name : List Char} (h : isAsciiName (String.ofList name) = true) (hc : continuesName c = true) :
    isAsciiName (String.ofList (name ++ [c])) = true := by
  obtain ⟨first, more, rfl, hfirst, hmore⟩ := isAsciiName_iff.mp h
  refine isAsciiName_iff.mpr ⟨first, more ++ [c], rfl, hfirst, fun d hd => ?_⟩
  rcases List.mem_append.mp hd with hd | hd
  · exact hmore d hd
  · obtain rfl := List.mem_singleton.mp hd
    exact hc

/-- What is read in front of a bracket is a path of names and a name; `segment` is what was read of the first of them.
-/
theorem exists_pathChars_of_headFrom {head : List Char} (h : headFrom segment cs = some (head, rest))
    (hsegment : segment ≠ [] → isAsciiName (String.ofList segment.reverse) = true) :
    ∃ path, (∀ name ∈ path, isAsciiName name = true) ∧ isAsciiName (String.ofList head) = true ∧
      segment.reverse ++ cs = Wrapper.pathChars path ++ (head ++ '<' :: rest) := by
  fun_induction headFrom segment cs with
  | case1 => cases h
  | case2 segment c more hc ih =>
    have hnext : isAsciiName (String.ofList (c :: segment).reverse) = true := by
      rw [List.reverse_cons]
      split at hc
      · next hempty =>
        obtain rfl := List.isEmpty_iff.mp hempty
        exact isAsciiName_iff.mpr ⟨c, [], rfl, hc, by simp⟩
      · next hne => exact isAsciiName_concat (hsegment (by simpa using hne)) hc
    obtain ⟨path, hpath, hhead, heq⟩ := ih h fun _ => hnext
    exact ⟨path, hpath, hhead, by simpa using heq⟩
  | case3 => cases h
  | case4 segment c more _ hne hangle =>
    obtain ⟨rfl, rfl⟩ := Prod.mk.inj (Option.some.inj h)
    obtain rfl := eq_of_beq hangle
    exact ⟨[], by simp, hsegment (by simpa using hne), rfl⟩
  | case5 segment hne more _ _ ih =>
    obtain ⟨path, hpath, hhead, heq⟩ := ih h (by simp)
    refine ⟨String.ofList segment.reverse :: path, ?_, hhead, ?_⟩
    · exact List.forall_mem_cons.mpr ⟨hsegment (by simpa using hne), hpath⟩
    · have heq : more = Wrapper.pathChars path ++ (head ++ '<' :: rest) := by simpa using heq
      simp [Wrapper.pathChars, heq]
  | case6 => cases h

/-- A path of names, a name and a bracket are read as they stand. -/
theorem headFrom_eq_some_iff {head : List Char} : headFrom [] cs = some (head, rest) ↔
    ∃ path, (∀ name ∈ path, isAsciiName name = true) ∧ isAsciiName (String.ofList head) = true ∧
      cs = Wrapper.pathChars path ++ (head ++ '<' :: rest) := by
  constructor
  · exact fun h => exists_pathChars_of_headFrom h (by simp)
  · rintro ⟨path, hpath, hhead, rfl⟩
    induction path with
    | nil =>
      obtain ⟨c, more, rfl, -⟩ := isAsciiName_iff.mp hhead
      have hne : (c :: more).reverse ≠ [] := by simp
      rw [Wrapper.pathChars, List.flatMap_nil, List.nil_append, headFrom_name hhead, headFrom_angle hne rest,
        List.reverse_reverse]
    | cons name path ih =>
      obtain ⟨hname, hpath⟩ := List.forall_mem_cons.mp hpath
      have hname : isAsciiName (String.ofList name.toList) = true := by rwa [String.ofList_toList]
      have hne : name.toList.reverse ≠ [] := by
        obtain ⟨c, more, hchars, -⟩ := isAsciiName_iff.mp hname
        simp [hchars]
      have hchars : Wrapper.pathChars (name :: path) ++ (head ++ '<' :: rest) =
          name.toList ++ ':' :: ':' :: (Wrapper.pathChars path ++ (head ++ '<' :: rest)) := by
        simp [Wrapper.pathChars]
      rw [hchars, headFrom_name hname, headFrom_colons hne, ih hpath]

theorem takeWhile_continuesName {name : List Char} (hname : ∀ c ∈ name, continuesName c = true) (cs : List Char) :
    (name ++ ':' :: cs).takeWhile continuesName = name := by
  have hcolon : continuesName ':' = false := by decide
  rw [List.takeWhile_append_of_pos hname, List.takeWhile_cons_of_neg (by simp [hcolon]), List.append_nil]

theorem pathChars_injective (hpath : ∀ name ∈ path, isAsciiName name = true)
    (hother : ∀ name ∈ other, isAsciiName name = true) (h : Wrapper.pathChars path = Wrapper.pathChars other) :
    path = other := by
  induction path generalizing other with
  | nil =>
    cases other with
    | nil => rfl
    | cons name other => simp [Wrapper.pathChars] at h
  | cons name path ih =>
    cases other with
    | nil => simp [Wrapper.pathChars] at h
    | cons name' other =>
      obtain ⟨hname, hpath'⟩ := List.forall_mem_cons.mp hpath
      obtain ⟨hname', hother'⟩ := List.forall_mem_cons.mp hother
      have hchars (name : String) (path : List String) :
          Wrapper.pathChars (name :: path) = name.toList ++ ':' :: ':' :: Wrapper.pathChars path := by
        simp [Wrapper.pathChars]
      rw [hchars, hchars] at h
      -- A colon continues no name, so both texts have the same name in front of their first colon.
      have hfirst := congrArg (List.takeWhile continuesName) h
      rw [takeWhile_continuesName (continuesName_of_isAsciiName hname),
        takeWhile_continuesName (continuesName_of_isAsciiName hname')] at hfirst
      rw [hfirst] at h
      obtain rfl := String.toList_inj.mp hfirst
      have hrest := (List.cons.inj (List.cons.inj (List.append_cancel_left h)).2).2
      rw [ih hpath' hother' hrest]

/-- How a text is made up of a path, the name of a type and an argument in brackets. -/
structure Wraps (path : List String) (head inner text : String) : Prop where
  text_eq : text.toList = Wrapper.pathChars path ++ (head.toList ++ '<' :: (inner.toList ++ ['>']))
  path_names : ∀ name ∈ path, isAsciiName name = true
  head_name : isAsciiName head = true
  argument : IsArgumentText inner.toList

theorem wrapped?_eq_some_iff_wraps : wrapped? text = some (head, inner) ↔ ∃ path, Wraps path head inner text := by
  rw [wrapped?_eq_some_iff, headFrom_eq_some_iff, isInner_iff, String.ofList_toList]
  constructor
  · rintro ⟨⟨path, hpath, hhead, htext⟩, hinner⟩
    exact ⟨path, htext, hpath, hhead, hinner⟩
  · rintro ⟨path, h⟩
    exact ⟨⟨path, h.path_names, h.head_name, h.text_eq⟩, h.argument⟩

/-- A text has its parts from one reading, so they are the only ones. -/
theorem Wraps.unique {head' inner' : String} (h : Wraps path head inner text) (hother : Wraps other head' inner' text) :
    path = other ∧ head = head' ∧ inner = inner' := by
  have hread := wrapped?_eq_some_iff_wraps.mpr ⟨path, h⟩
  obtain ⟨rfl, rfl⟩ : head = head' ∧ inner = inner' := by
    simpa [hread] using wrapped?_eq_some_iff_wraps.mpr ⟨other, hother⟩
  have hpaths := List.append_cancel_right (h.text_eq.symm.trans hother.text_eq)
  exact ⟨pathChars_injective h.path_names hother.path_names hpaths, rfl, rfl⟩

/-- A text is read as a wrapped type exactly if it has the shape of one, and it has that shape in one way only. What is
read as an element of a sequence is an element of the plain sequence too, alone and with a name around it. -/
theorem wrapped?_reads_shape (text : String) :
    (∀ head inner, wrapped? text = some (head, inner) ↔ ∃ path, Wraps path head inner text) ∧
    (∀ path head inner path' head' inner', Wraps path head inner text → Wraps path' head' inner' text →
      path = path' ∧ head = head' ∧ inner = inner') ∧
    ∀ element, sequenceElement? text = some element →
      sequenceElement? (sequenceOf element) = some element ∧
      ∀ name, isAsciiName name = true →
        sequenceElement? (sequenceOf (name ++ "<" ++ element ++ ">")) = some (name ++ "<" ++ element ++ ">") := by
  refine ⟨fun head inner => wrapped?_eq_some_iff_wraps, fun _ _ _ _ _ _ h hother => h.unique hother, fun element h => ?_⟩
  have hinner : IsInner element.toList := isInner_of_sequenceElement? h
  refine ⟨sequenceElement?_eq_some_iff.mpr (wrapped?_sequenceOf hinner), fun name hname => ?_⟩
  have hwrapped : IsInner (name ++ "<" ++ element ++ ">").toList := by
    simpa using hinner.wrap (continuesName_of_isAsciiName hname)
  exact sequenceElement?_eq_some_iff.mpr (wrapped?_sequenceOf hwrapped)

end CommandBinding.CodeText
