import CommandBinding.Proofs.ParserRuns
import CommandBinding.Proofs.ReadDirectives
import CommandBinding.Source.Declaration

/-!
What stands in front of the word `fn` of a function. It is made of attributes, a visibility, modifiers and a calling
convention, none of which contains that word or begins with a colon; so the name of a function is the word behind the first
`fn` in its code.
-/
namespace CommandBinding.Source

open CommandBinding.Source.Parser

/-- Whether a token may stand in front of the word `fn` of a function. -/
def LeadsIn (t : Token) : Prop :=
  t ≠ .word "fn" ∧ ∀ isJoint, t ≠ .mark ':' isJoint

/-- The identifier behind the first word `fn`. -/
def definedName? (tokens : List Token) : Option String :=
  match tokens.dropWhile (· ≠ .word "fn") with
  | _ :: .word name :: _ => some (unraw name)
  | _ => none

variable {tokens : List Token} {f : FunctionItem} {r r' : Reading} {trees : Trees}

theorem definedName?_of_leads {lead behind : List Token} {name : String} (h : ∀ t ∈ lead, LeadsIn t) :
    definedName? (lead ++ .word "fn" :: .word name :: behind) = some (unraw name) := by
  have hlead : ∀ t ∈ lead, decide (t ≠ .word "fn") = true := fun t ht => decide_eq_true (h t ht).1
  rw [definedName?, List.dropWhile_append_of_pos hlead]
  simp

theorem leadsIn_word {word : String} (h : word ≠ "fn") : LeadsIn (.word word) :=
  ⟨by simpa using h, by simp⟩

theorem leadsIn_group (delimiter : Delimiter) (inner : List Token) : LeadsIn (.group delimiter inner) :=
  ⟨by simp, by simp⟩

theorem leadsIn_attribute (a : Attribute) : ∀ t ∈ a.tokens, LeadsIn t := by
  intro t ht
  have ht : t = .mark '#' false ∨ t = .mark '!' false ∨
      t = .group .bracket (a.path ++ Attribute.contentTokens a.content) := by
    cases hinner : a.isInner <;> simp [Attribute.tokens, hinner] at ht <;> tauto
  rcases ht with rfl | rfl | rfl
  · exact ⟨by simp, by simp⟩
  · exact ⟨by simp, by simp⟩
  · exact leadsIn_group _ _

theorem leadsIn_optionalWord {word : String} (h : word ≠ "fn") (stands : Bool) :
    ∀ t ∈ Signature.optionalWord word stands, LeadsIn t := by
  intro t ht
  cases stands with
  | false => cases ht
  | true =>
    obtain rfl := List.mem_singleton.mp ht
    exact leadsIn_word h

theorem leadsIn_visibility (h : visibility r = .ok (trees, r')) : ∀ t ∈ Tree.tokensOf trees, LeadsIn t := by
  rw [visibility, run_remaining_bind_iff] at h
  split at h
  · obtain ⟨rfl, -⟩ := run_pure_iff.mp h
    simp [Tree.tokensOf]
  · next hpub =>
    have hpub : atWord "pub" r.tokens = true := by simpa using hpub
    rw [run_bind_iff] at h
    obtain ⟨head, s, hhead, h⟩ := h
    obtain rfl := eq_word_of_run_anyToken hpub hhead
    rw [run_bind_iff] at h
    obtain ⟨tokens, s', -, h⟩ := h
    -- Behind the word there is nothing more, or one group.
    have htrees : trees = [.leaf (.word "pub")] ∨ ∃ delimiter inner, Tree.tokensOf trees =
        [.word "pub", .group delimiter inner] := by
      split at h
      · next inner rest =>
        split at h
        · rw [run_bind_iff] at h
          obtain ⟨group, s'', hgroup, h⟩ := h
          obtain ⟨delimiter, inner, rfl⟩ := eq_group_of_run_anyGroup hgroup
          obtain ⟨rfl, -⟩ := run_pure_iff.mp h
          exact Or.inr ⟨delimiter, inner, rfl⟩
        · split at h
          · rw [run_bind_iff] at h
            obtain ⟨group, s'', hgroup, h⟩ := h
            obtain ⟨inner, rfl⟩ := eq_group_of_run hgroup
            obtain ⟨rfl, -⟩ := run_pure_iff.mp h
            exact Or.inr ⟨_, _, rfl⟩
          · exact Or.inl (run_pure_iff.mp h).1.symm
      · exact Or.inl (run_pure_iff.mp h).1.symm
    intro t ht
    rcases htrees with rfl | ⟨delimiter, inner, heq⟩
    · obtain rfl : t = .word "pub" := by simpa [Tree.tokensOf, Tree.tokens] using ht
      exact leadsIn_word (by decide)
    · rw [heq] at ht
      have ht : t = .word "pub" ∨ t = .group delimiter inner := by simpa using ht
      rcases ht with rfl | rfl
      · exact leadsIn_word (by decide)
      · exact leadsIn_group delimiter inner

theorem leadsIn_linkage (h : Recur.linkage r = .ok (trees, r')) : ∀ t ∈ Tree.tokensOf trees, LeadsIn t := by
  rw [Recur.linkage, run_remaining_bind_iff] at h
  split at h
  · next hextern =>
    rw [run_bind_iff] at h
    obtain ⟨head, s, hhead, h⟩ := h
    obtain rfl := eq_word_of_run_anyToken hextern hhead
    rw [run_remaining_bind_iff] at h
    have htrees : trees = [.leaf (.word "extern")] ∨ ∃ text, trees = [.leaf (.word "extern"), .leaf (.literal text)] := by
      dsimp only at h
      split at h
      · next hstring =>
        rw [run_bind_iff] at h
        obtain ⟨name, s', hname, h⟩ := h
        obtain ⟨text, rfl⟩ := eq_literal_of_run_anyToken hstring hname
        exact Or.inr ⟨text, (run_pure_iff.mp h).1.symm⟩
      · rw [run_bind_iff] at h
        obtain ⟨name, s', hname, h⟩ := h
        obtain ⟨rfl, -⟩ := run_pure_iff.mp hname
        exact Or.inl (run_pure_iff.mp h).1.symm
    intro t ht
    rcases htrees with rfl | ⟨text, rfl⟩
    · obtain rfl : t = .word "extern" := by simpa [Tree.tokensOf, Tree.tokens] using ht
      exact leadsIn_word (by decide)
    · have ht : t = .word "extern" ∨ t = .literal text := by simpa [Tree.tokensOf, Tree.tokens] using ht
      rcases ht with rfl | rfl
      · exact leadsIn_word (by decide)
      · exact ⟨by simp, by simp⟩
  · obtain ⟨rfl, -⟩ := run_pure_iff.mp h
    simp [Tree.tokensOf]

namespace Recur

variable (rec : Recur)

theorem yields_signature : Yields rec.signature fun result => ∀ t ∈ result.1.linkage, LeadsIn t := by
  refine Yields.behind fun constness => Yields.behind fun asyncness => ?_
  refine Yields.behind fun unsafety => ?_
  have hconvention : Yields Recur.linkage fun convention => ∀ t ∈ Tree.tokensOf convention, LeadsIn t :=
    fun r convention r' h => leadsIn_linkage h
  refine hconvention.bind fun convention hlinkage => ?_
  refine Yields.behind fun _ => Yields.behind fun name => Yields.behind fun generics => ?_
  refine Yields.behind fun inputs => Yields.behind fun output => Yields.behind fun clause => ?_
  exact Yields.pure hlinkage

/-- A function that stands alone begins with tokens that lead to its name. -/
theorem yields_functionItem : Yields rec.functionItem fun result =>
    (∀ t ∈ result.1.visibility ++ result.1.signature.linkage, LeadsIn t) ∧ result.1.defaultness = [] := by
  refine Yields.behind fun attributes => ?_
  have hvisibility : Yields visibility fun trees => ∀ t ∈ Tree.tokensOf trees, LeadsIn t :=
    fun r trees r' h => leadsIn_visibility h
  refine hvisibility.bind fun trees hleads => (yields_signature rec).bind fun signature hlinkage => ?_
  refine Yields.behind fun block => Yields.pure ⟨?_, rfl⟩
  exact List.forall_mem_append.mpr ⟨hleads, hlinkage⟩

end Recur

namespace FunctionItem

def lead (f : FunctionItem) : List Token :=
  (f.attributes.filter (!·.isInner)).flatMap Attribute.tokens ++ f.visibility ++ f.defaultness ++
    Signature.optionalWord "const" f.signature.isConst ++ Signature.optionalWord "async" f.signature.isAsync ++
    Signature.optionalWord "unsafe" f.signature.isUnsafe ++ f.signature.linkage

theorem exists_tokens_eq_lead (f : FunctionItem) :
    ∃ behind, f.tokens = f.lead ++ .word "fn" :: .word f.signature.name.text :: behind := by
  refine ⟨f.signature.genericTokens ++ [.group .parenthesis f.signature.inputTokens] ++ f.signature.outputTokens ++
    f.signature.bounds ++
    [.group .brace ((f.attributes.filter (·.isInner)).flatMap Attribute.tokens ++ f.body)], ?_⟩
  simp only [tokens, lead, Signature.tokens, List.append_assoc, List.cons_append, List.nil_append]

theorem lead_withoutOptions (f : FunctionItem) : f.withoutOptions.lead = f.lead := rfl

/-- Nothing in front of the word `fn` of a parsed function is that word, or a colon. -/
theorem leadsIn_of_parseFunction (h : parseFunction tokens = .ok f) : ∀ t ∈ f.lead, LeadsIn t := by
  simp only [parseFunction, Bind.bind, Except.bind] at h
  split at h
  · cases h
  · next result hresult =>
    obtain rfl : result.1 = f := Except.ok.inj h
    obtain ⟨hleads, hdefaultness⟩ := Yields.of_parse (fun rec => Recur.yields_functionItem rec) hresult
    obtain ⟨hvisibility, hlinkage⟩ := List.forall_mem_append.mp hleads
    have hattributes : ∀ t ∈ (result.1.attributes.filter (!·.isInner)).flatMap Attribute.tokens, LeadsIn t := by
      intro t ht
      obtain ⟨a, -, hmem⟩ := List.mem_flatMap.mp ht
      exact leadsIn_attribute a t hmem
    simp only [lead, hdefaultness, List.append_nil, List.forall_mem_append]
    exact ⟨⟨⟨⟨⟨hattributes, hvisibility⟩, leadsIn_optionalWord (by decide) _⟩, leadsIn_optionalWord (by decide) _⟩,
      leadsIn_optionalWord (by decide) _⟩, hlinkage⟩

/-- The name of such a function is the one behind the first word `fn` in its code. -/
theorem definedName?_tokens (h : ∀ t ∈ f.lead, LeadsIn t) :
    definedName? f.withoutOptions.tokens = some f.signature.name.plain := by
  obtain ⟨behind, htokens⟩ := exists_tokens_eq_lead f.withoutOptions
  rw [htokens, lead_withoutOptions, definedName?_of_leads h]
  rfl

end FunctionItem

end CommandBinding.Source
