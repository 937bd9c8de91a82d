import GitRemote.Proofs.Push.Matching
import GitRemote.Proofs.Text.Cut
import GitRemote.Proofs.Text.Lines
import GitRemote.Proofs.Text.Utf8
import GitRemote.Proofs.Wire.InfoRefs
import GitRemote.Remote.Discovery

/-!
# Names that a discovery admits

A name in a list of plain files is a piece between line feeds, and a name with a symbolic target is a
word or that of the head. Any other name that is sent in a packet may hold every character but NUL.
-/

namespace GitRemote

/-- A text is one line. -/
def OneLine (s : String) : Prop := '\n' ∉ s.toList

instance (s : String) : Decidable (OneLine s) := inferInstanceAs (Decidable (_ ∉ _))

/-- The target of a symbolic ref is one line, and the name of one has no blank. -/
def Ref.Addressed (r : Ref) : Prop :=
  ∀ target, r.symref = some target → OneLine target ∧ ' ' ∉ r.name.toList

/-! ### Smart servers -/

/-- A word has no character that separates words. -/
theorem isBlank_of_mem_words {text word : String} (h : word ∈ Text.words text) {c : Char}
    (hc : c ∈ word.toList) : Text.isBlank c = false := by
  obtain ⟨piece, hpiece, rfl⟩ := List.mem_map.mp h
  rw [String.toList_ofList] at hc
  exact not_of_mem_splitOn (List.mem_filter.mp hpiece).1 c hc

/-- A value is a part of a word. -/
theorem Capabilities.isBlank_of_mem_values {list name value : String}
    (h : value ∈ (parse list).values name) {c : Char} (hc : c ∈ value.toList) :
    Text.isBlank c = false := by
  obtain ⟨word, hword, hvalue⟩ := List.mem_filterMap.mp h
  rw [valueIn?] at hvalue
  split at hvalue
  · next value hafter =>
    cases hvalue
    rw [String.toList_ofList] at hc
    refine isBlank_of_mem_words hword ?_
    rw [after?_eq_some.mp hafter]
    exact List.mem_append_right _ (List.mem_cons_of_mem _ hc)
  · cases hvalue

/-- A symbolic target is attached to a ref whose name has no blank either. -/
theorem Advertisement.addressed_attachSymref {refs : List Ref} {value : String}
    (hvalue : ∀ c ∈ value.toList, Text.isBlank c = false) (h : ∀ r ∈ refs, r.Addressed) :
    ∀ r ∈ attachSymref refs value, r.Addressed := by
  rw [attachSymref]
  split
  · exact h
  next name target hcut =>
    split
    · exact h
    next i hfind =>
      obtain ⟨-, hparts⟩ := cutAt?_eq_some.mp hcut
      rw [hparts] at hvalue
      obtain ⟨named, hnamed, hname⟩ := exists_of_findRef hfind
      intro r hr
      obtain ⟨j, hj⟩ := List.getElem?_of_mem hr
      rw [List.getElem?_modify] at hj
      obtain ⟨q, hq, rfl⟩ := Option.map_eq_some_iff.mp hj
      by_cases hij : i = j
      · subst hij
        obtain rfl : named = q := Option.some.inj (hnamed.symm.trans hq)
        rw [if_pos rfl]
        rintro _ ⟨⟩
        refine ⟨fun hlf => ?_, fun hblank => ?_⟩
        · have hfree := hvalue _ (List.mem_append_right _ (List.mem_cons_of_mem _ hlf))
          revert hfree
          decide
        · rw [hname] at hblank
          have hfree := hvalue _ (List.mem_append_left _ hblank)
          revert hfree
          decide
      · rw [if_neg hij]
        exact h q (List.mem_of_getElem? hq)

/-- The refs of an advertisement in packets. -/
theorem Advertisement.addressed_ofLines (lines : List Line) :
    ∀ r ∈ (ofLines lines).refs, r.Addressed := by
  have hfold (values : List String) (refs : List Ref)
      (hvalues : ∀ value ∈ values, ∀ c ∈ value.toList, Text.isBlank c = false)
      (hrefs : ∀ r ∈ refs, r.Addressed) : ∀ r ∈ values.foldl attachSymref refs, r.Addressed := by
    induction values generalizing refs with
    | nil => exact hrefs
    | cons value values ih =>
      rw [List.forall_mem_cons] at hvalues
      exact ih _ hvalues.2 (addressed_attachSymref hvalues.1 hrefs)
  refine hfold _ _ (fun value hvalue c hc => ?_) fun r hr => ?_
  · rw [capabilitiesOf] at hvalue
    split at hvalue
    · exact Capabilities.isBlank_of_mem_values hvalue hc
    · cases hvalue
  · obtain ⟨line, -, hline⟩ := List.mem_filterMap.mp hr
    cases line with
    | shallow id => cases hline
    | object id name list =>
      rw [Line.ref?] at hline
      split at hline
      · cases hline
      · cases hline
        rintro _ ⟨⟩

/-- A symbolic ref that is read off an advertisement has a target of one line, and a name without a
blank. -/
theorem Advertisement.addressed_read {s rest : Bytes} {a : Advertisement}
    (h : read s = (.ok a, rest)) : ∀ r ∈ a.refs, r.Addressed := by
  rw [read] at h
  split at h
  · cases h
    exact addressed_ofLines _
  · cases h

/-! ### Servers of plain files -/

/-- The refs of a list of plain files have names of one line and no targets. -/
theorem plain_parseInfoRefs {buf : Bytes} {refs : List Ref} (h : parseInfoRefs buf = .ok refs) :
    ∀ r ∈ refs, OneLine r.name ∧ r.symref = none := by
  obtain ⟨lines, -, hlines⟩ := parseInfoRefs_eq_ok.mp h
  clear h
  induction hlines with
  | nil => exact fun _ h => absurd h List.not_mem_nil
  | cons hline _ ih =>
    obtain ⟨-, -, -, -, hlf⟩ := hline
    exact List.forall_mem_cons.mpr ⟨⟨hlf, rfl⟩, ih⟩

namespace Discovery

/-- The head of a server of plain files is named so, and its target is one of the refs. -/
theorem head?_eq_some {content : Bytes} {refs : List Ref} {r : Ref} (h : head? content refs = some r) :
    r.name = "HEAD" ∧ ∀ target, r.symref = some target → ∃ q ∈ refs, q.name = target := by
  rw [head?] at h
  split at h
  · cases h
  next text _ =>
    dsimp only at h
    split at h
    · obtain ⟨i, hfind, h⟩ := Option.bind_eq_some_iff.mp h
      obtain ⟨q, hq, rfl⟩ := Option.map_eq_some_iff.mp h
      obtain ⟨q', hq', hname⟩ := exists_of_findRef hfind
      refine ⟨rfl, ?_⟩
      rintro _ ⟨⟩
      exact ⟨q', List.mem_of_getElem? hq', hname⟩
    · obtain ⟨id, -, rfl⟩ := Option.map_eq_some_iff.mp h
      refine ⟨rfl, ?_⟩
      rintro _ ⟨⟩

/-- What is known of the refs of a discovery: symbolic ones are addressed by words, and names in a list
of plain files are one line. -/
structure Admissible (d : Discovery) : Prop where
  addressed : ∀ r ∈ d.refs, r.Addressed
  oneLine : d.smart = false → ∀ r ∈ d.refs, OneLine r.name

/-- What a smart server advertises is admissible. -/
theorem admissible_ofSmart {service : String} {body : Bytes} {d : Discovery}
    (h : ofSmart service body = .ok d) : d.Admissible := by
  rw [ofSmart] at h
  split at h
  · cases h
  split at h
  · split at h
    · cases h
    next advertisement _ =>
      split at h
      · cases h
      next a hread =>
        cases h
        refine ⟨?_, fun hsmart => by cases hsmart⟩
        exact Advertisement.addressed_read (Prod.ext hread rfl)
  · cases h

/-- What a plain server lists is admissible. -/
theorem admissible_ofPlain {c c' : Http.Client} {base service : String} {body : Bytes}
    {d : Discovery} (h : ofPlain c base service body = (.ok d, c')) : d.Admissible := by
  rw [ofPlain] at h
  split at h
  · cases h
  next refs hrefs =>
    have hplain := plain_parseInfoRefs hrefs
    have hhead : ∀ r ∈ (fetchHead c base refs).1.toList,
        r.name = "HEAD" ∧ ∀ target, r.symref = some target → ∃ q ∈ refs, q.name = target := by
      intro r hr
      rw [Option.mem_toList, fetchHead] at hr
      split at hr
      · cases hr
      · dsimp only at hr
        split at hr
        · exact head?_eq_some hr
        · cases hr
    cases h
    refine ⟨?_, fun _ => ?_⟩
    · intro r hr target htarget
      rcases List.mem_append.mp hr with hr | hr
      · obtain ⟨hname, hsome⟩ := hhead r hr
        obtain ⟨q, hq, rfl⟩ := hsome target htarget
        rw [hname]
        exact ⟨(hplain q hq).1, by decide⟩
      · rw [(hplain r hr).2] at htarget
        cases htarget
    · intro r hr
      rcases List.mem_append.mp hr with hr | hr
      · rw [(hhead r hr).1]
        decide
      · exact (hplain r hr).1

/-- Whatever a server answers, what it is asked for gives an admissible discovery. -/
theorem admissible_fetch {c c' : Http.Client} {base service : String} {smart : Bool} {d : Discovery}
    (h : fetch c base service smart = (.ok d, c')) : d.Admissible := by
  rw [fetch] at h
  split at h
  · cases h
  · split at h
    · split at h
      · next hsmart =>
        exact admissible_ofSmart (Prod.mk.inj h).1
      · exact admissible_ofPlain h
    · split at h <;> cases h

/-- A discovery that is known stays admissible, and so is what is known afterwards. -/
theorem admissible_discover {known : Option Discovery} {c : Http.Client} {base service : String}
    {smart : Bool} (h : ∀ d ∈ known, d.Admissible) :
    (∀ d, (discover known c base service smart).1 = .ok d → d.Admissible) ∧
      ∀ d ∈ (discover known c base service smart).2.1, d.Admissible := by
  rw [discover]
  split
  · next d hknown =>
    have hd := h d (Option.filter_eq_some_iff.mp hknown).1
    refine ⟨?_, ?_⟩
    · rintro _ ⟨⟩
      exact hd
    · rintro _ ⟨⟩
      exact hd
  · split
    · next d c' hfetch =>
      have hd := admissible_fetch hfetch
      refine ⟨?_, ?_⟩
      · rintro _ ⟨⟩
        exact hd
      · rintro _ ⟨⟩
        exact hd
    · refine ⟨?_, ?_⟩ <;> rintro _ ⟨⟩

end Discovery

end GitRemote
