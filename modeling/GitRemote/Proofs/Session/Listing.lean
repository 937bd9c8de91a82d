import GitRemote.Proofs.Push.History
import GitRemote.Proofs.Remote.Names
import GitRemote.Session.Basic

/-!
# Listings are read back

A caller reads the list of refs line by line up to the first empty line. It gets back what the
discovery has, and all of it, exactly if no name holds a line feed. Servers of plain files cannot send
such a name, smart servers can.
-/

namespace GitRemote

/-! ### The caller's side -/

/-- Where a ref leads: its id, or its target behind an at sign. -/
def Ref.leadsTo (r : Ref) : String := r.symref.elim r.oldId.hex ("@" ++ ·)

/-- The line on a ref. -/
def Ref.line (r : Ref) : String := r.leadsTo ++ " " ++ r.name

/-- What the line says. -/
def Ref.listed (r : Ref) : String × String := (r.leadsTo, r.name)

/-- Reads a line at its first blank, or at its last one if it starts with an at sign. -/
def readRef? (line : String) : Option (String × String) :=
  if line.toList.head? = some '@' then
    (Text.cut? (· == ' ') line.toList.reverse).map fun (name, target) =>
      (String.ofList target.reverse, String.ofList name.reverse)
  else Text.cutAt? ' ' line

/-- Reads the lines of a text up to the first empty one. -/
def readRefs? (text : String) : Option (List (String × String)) :=
  ((Text.fields '\n' text).takeWhile (!·.isEmpty)).mapM readRef?

/-- Reads a list of refs. -/
def readListing? (output : Bytes) : Option (List (String × String)) :=
  (Utf8.decode? output).bind readRefs?

/-! ### Lines -/

/-- An id is written with letters and digits. -/
theorem ObjectId.isAlphanum_of_mem_hex {id : ObjectId} {c : Char} (h : c ∈ id.hex.toList) :
    c.isAlphanum = true := by
  have hall : ∀ i : Fin 256, (hexPair (UInt8.ofNat i)).all
      (fun b => (Char.ofNat b.toNat).isAlphanum) = true := by
    decide +kernel
  rw [hex, String.toList_ofList, hexBytes] at h
  obtain ⟨b, hb, rfl⟩ := List.mem_map.mp h
  obtain ⟨octet, -, hpair⟩ := List.mem_flatMap.mp hb
  have hdigits := hall ⟨octet.toNat, octet.toNat_lt⟩
  rw [UInt8.ofNat_toNat] at hdigits
  exact List.all_eq_true.mp hdigits b hpair

/-- A part of a line that was read is in the line. -/
theorem mem_of_readRef? {line value name : String} (h : readRef? line = some (value, name)) {c : Char}
    (hc : c ∈ name.toList) : c ∈ line.toList := by
  rw [readRef?] at h
  split at h
  · obtain ⟨⟨front, back⟩, hcut, h⟩ := Option.map_eq_some_iff.mp h
    cases h
    obtain ⟨_, -, -, hline⟩ := cut?_eq_some.mp hcut
    rw [String.toList_ofList, List.mem_reverse] at hc
    rw [← List.mem_reverse, hline]
    exact List.mem_append_left _ hc
  · obtain ⟨-, hline⟩ := cutAt?_eq_some.mp h
    rw [hline]
    exact List.mem_append_right _ (List.mem_cons_of_mem _ hc)

namespace Ref

variable {r : Ref}

theorem toList_line (r : Ref) : r.line.toList = r.leadsTo.toList ++ ' ' :: r.name.toList := by
  rw [line, String.toList_append, String.toList_append, List.append_assoc]
  rfl

/-- A ref that is not symbolic leads to an id, which is letters and digits. -/
theorem isAlphanum_of_mem_leadsTo (h : r.symref = none) {c : Char} (hc : c ∈ r.leadsTo.toList) :
    c.isAlphanum = true := by
  rw [leadsTo, h] at hc
  exact ObjectId.isAlphanum_of_mem_hex hc

/-- A symbolic ref leads to the name of its target, behind an at sign. -/
theorem toList_leadsTo {target : String} (h : r.symref = some target) :
    r.leadsTo.toList = '@' :: target.toList := by
  rw [leadsTo, h, Option.elim_some, String.toList_append]
  rfl

/-- The line on a ref is read back. -/
theorem readRef?_line (h : r.Addressed) : readRef? r.line = some r.listed := by
  rw [readRef?]
  cases hsymref : r.symref with
  | none =>
    have halnum : ∀ c ∈ r.leadsTo.toList, c.isAlphanum = true :=
      fun _ => isAlphanum_of_mem_leadsTo hsymref
    have hhead : r.line.toList.head? ≠ some '@' := by
      rw [toList_line]
      cases hdigits : r.leadsTo.toList with
      | nil =>
        rw [List.nil_append, List.head?_cons]
        decide
      | cons c digits =>
        rw [List.cons_append, List.head?_cons, ne_eq, Option.some.injEq]
        rintro rfl
        exact absurd (halnum '@' (by rw [hdigits]; exact List.mem_cons_self)) (by decide)
    rw [if_neg hhead]
    exact cutAt?_eq_some.mpr ⟨fun hblank => absurd (halnum _ hblank) (by decide), toList_line r⟩
  | some target =>
    have hcut : Text.cut? (· == ' ') r.line.toList.reverse =
        some (r.name.toList.reverse, r.leadsTo.toList.reverse) := by
      refine cut?_eq_some.mpr ⟨' ', beq_self_eq_true _, fun c hc => ?_, by simp [toList_line]⟩
      refine beq_false_of_ne ?_
      rintro rfl
      exact (h target hsymref).2 (List.mem_reverse.mp hc)
    rw [if_pos (by rw [toList_line, toList_leadsTo hsymref]; rfl), hcut]
    simp [listed]

/-- The line on a ref is one line if the name is. -/
theorem oneLine_line (h : r.Addressed) (hname : OneLine r.name) : OneLine r.line := by
  rw [OneLine, toList_line, List.mem_append, List.mem_cons, not_or, not_or]
  refine ⟨fun hlf => ?_, by decide, hname⟩
  cases hsymref : r.symref with
  | none => exact absurd (isAlphanum_of_mem_leadsTo hsymref hlf) (by decide)
  | some target =>
    rw [toList_leadsTo hsymref, List.mem_cons] at hlf
    exact hlf.elim (by decide) (h target hsymref).1

/-- The line of a ref is not the blank line that ends a listing. -/
theorem line_ne_empty (r : Ref) : r.line.isEmpty = false := by
  rw [Bool.eq_false_iff, ne_eq, String.isEmpty_iff]
  intro hempty
  have hnil := congrArg String.toList hempty
  rw [toList_line] at hnil
  simp at hnil

end Ref

/-! ### Lists -/

/-- A list of refs is one line for each, and an empty line. -/
theorem Session.refList_eq (refs : List Ref) :
    refList refs = String.join (refs.map (·.line ++ "\n")) ++ "\n" := by
  have hline (r : Ref) : refLine r = r.line ++ "\n" := by
    rw [refLine, Ref.line, Ref.leadsTo]
    cases r.symref <;> rfl
  rw [refList, List.map_congr_left fun r _ => hline r]

/-- The first piece of a text is one line. -/
theorem exists_fields (s : String) :
    ∃ first rest, Text.fields '\n' s = first :: rest ∧ OneLine first := by
  obtain ⟨piece, pieces, hsplit, -⟩ := splitOn_append (p := (· == '\n')) (a := []) (by simp) s.toList
  refine ⟨String.ofList piece, pieces.map String.ofList, ?_, fun hlf => ?_⟩
  · rw [Text.fields, hsplit, List.map_cons]
  · rw [String.toList_ofList] at hlf
    have hno := not_of_mem_splitOn (by rw [hsplit]; exact List.mem_cons_self) _ hlf
    revert hno
    decide

/-- The list of some refs is read back exactly if their names are one line each: the first name that
is not has its line cut, so its name is lost. -/
theorem readRefs?_refList {refs : List Ref} (h : ∀ r ∈ refs, r.Addressed) :
    readRefs? (Session.refList refs) = some (refs.map Ref.listed) ↔
      ∀ r ∈ refs, OneLine r.name := by
  rw [Session.refList_eq]
  induction refs with
  | nil => exact iff_of_true rfl (by simp)
  | cons r refs ih =>
    rw [List.forall_mem_cons] at h ⊢
    rw [List.map_cons, String.join_cons, String.append_assoc]
    by_cases hname : OneLine r.name
    · rw [readRefs?, fields_line (Ref.oneLine_line h.1 hname),
        List.takeWhile_cons_of_pos (by rw [r.line_ne_empty]; rfl), List.mapM_cons,
        Ref.readRef?_line h.1, ← ih h.2, readRefs?, List.map_cons]
      cases ((Text.fields '\n' (String.join (refs.map (·.line ++ "\n")) ++ "\n")).takeWhile
        (!·.isEmpty)).mapM readRef? with
      | none => simp
      | some entries => simp [hname]
    · refine iff_of_false (fun hread => hname ?_) fun hall => hname hall.1
      obtain ⟨first, rest, hfields, hfirst⟩ := exists_fields
        (r.line ++ "\n" ++ (String.join (refs.map (·.line ++ "\n")) ++ "\n"))
      rw [readRefs?, hfields, List.takeWhile_cons] at hread
      split at hread
      · rw [List.mapM_cons] at hread
        obtain ⟨entry, hentry, hread⟩ := Option.bind_eq_some_iff.mp hread
        obtain ⟨entries, -, hread⟩ := Option.bind_eq_some_iff.mp hread
        have hlisted : entry = r.listed := (List.cons.inj (Option.some.inj hread)).1
        rw [hlisted] at hentry
        exact fun hlf => hfirst (mem_of_readRef? hentry hlf)
      · rw [List.mapM_nil] at hread
        cases hread

/-- Where all names are one line, the list is split into the lines on the refs, the empty line, and
nothing behind it. -/
theorem fields_refList {refs : List Ref} (h : ∀ r ∈ refs, r.Addressed)
    (hnames : ∀ r ∈ refs, OneLine r.name) :
    Text.fields '\n' (Session.refList refs) = refs.map Ref.line ++ ["", ""] := by
  have hlines : ∀ line ∈ refs.map Ref.line, '\n' ∉ line.toList := by
    intro line hline
    obtain ⟨r, hr, rfl⟩ := List.mem_map.mp hline
    exact Ref.oneLine_line (h r hr) (hnames r hr)
  have hsplit := fields_join hlines "\n"
  rw [List.map_map] at hsplit
  rw [Session.refList_eq]
  exact hsplit

/-! ### Sessions -/

namespace Session

/-- What a session knows of the refs of its remote comes from a server. -/
def Admissible (s : Session) : Prop := ∀ d ∈ s.known, d.Admissible

variable {s : Session}

/-- A session starts without known refs, so none is inadmissible. -/
theorem admissible_start {url : String} {config : Config} {server : Http.Server} {host : Host}
    {gitDir : Option String} {objects : LooseDir}
    (h : start url config server host gitDir objects = .ok s) : s.Admissible := by
  rw [start] at h
  cases hurl : splitUrl url with
  | error e =>
    rw [hurl] at h
    cases h
  | ok parts =>
    rw [hurl] at h
    cases h
    rintro _ ⟨⟩

/-- Discovering is all that changes what is known, and it gives what is admissible. -/
theorem admissible_discover (s : Session) (service : String) (h : s.Admissible) :
    (∀ d, (s.discover service).1 = .ok d → d.Admissible) ∧ (s.discover service).2.Admissible :=
  Discovery.admissible_discover h

/-- What is left known stays admissible. -/
theorem Admissible.of_known_eq {s' : Session} (h : s.Admissible) (hknown : s'.known = s.known) :
    s'.Admissible :=
  fun d hd => h d (hknown ▸ hd)

/-- Fetching packs does not change the refs that are known. -/
theorem known_fetchSmart (s : Session) (gitDir : String) (d : Discovery) (targets : List FetchTarget) :
    (s.fetchSmart gitDir d targets).2.known = s.known := by
  rw [fetchSmart]
  split <;> rfl

theorem known_fetchPlain (s : Session) (targets : List FetchTarget) :
    (s.fetchPlain targets).2.known = s.known := by
  rw [fetchPlain]
  split <;> rfl

theorem known_pushPlain (s : Session) (specs : List String) :
    (s.pushPlain specs).2.known = s.known := by
  rw [pushPlain]
  dsimp only
  split <;> rfl

/-- A fetch leaves the refs that are known admissible. -/
theorem admissible_fetch (h : s.Admissible) (targets : List FetchTarget) :
    (s.fetch targets).2.Admissible := by
  rw [fetch]
  split
  · exact h
  next gitDir _ =>
    have hdiscover := (s.admissible_discover fetchService h).2
    split
    · next hfound =>
      rw [hfound] at hdiscover
      exact hdiscover
    · next d s' hfound =>
      rw [hfound] at hdiscover
      dsimp only
      split
      · exact hdiscover.of_known_eq (s'.known_fetchSmart gitDir d targets)
      · exact hdiscover.of_known_eq (s'.known_fetchPlain targets)

/-- A push leaves the refs that are known admissible. -/
theorem admissible_push (h : s.Admissible) (specs : List String) :
    (s.push specs).2.Admissible := by
  rw [push]
  have hdiscover := (s.admissible_discover pushService h).2
  split
  · next hfound =>
    rw [hfound] at hdiscover
    exact hdiscover
  · next d s' hfound =>
    rw [hfound] at hdiscover
    dsimp only
    split
    · exact hdiscover
    · exact hdiscover.of_known_eq (s'.known_pushPlain specs)

/-- Serving a request keeps what is known admissible. -/
theorem admissible_answer (h : s.Admissible) (r : Request) : (s.answer r).2.Admissible := by
  cases r with
  | capabilities => exact h
  | list forPush => exact (s.admissible_discover _ h).2
  | option setting => exact h
  | fetch targets => exact admissible_fetch h targets
  | push specs => exact admissible_push h specs

/-- Over a whole session the refs that are known stay admissible. -/
theorem admissible_serve (h : s.Admissible) (requests : List (Except RemoteError Request)) :
    (s.serve requests).2.2.Admissible := by
  induction requests generalizing s with
  | nil => exact h
  | cons request requests ih =>
    cases request with
    | error e => exact h
    | ok r =>
      have hanswer := admissible_answer h r
      rw [serve]
      split
      · next hserved =>
        rw [hserved] at hanswer
        exact hanswer
      · next hserved =>
        rw [hserved] at hanswer
        exact ih hanswer

/-- The list that a session gives, whatever it has served before and whatever servers answered, is a
line for each ref of the discovery, in their order, and an empty line. A caller that reads it up to the
first empty line gets exactly what the discovery has if no name holds a line feed, and otherwise does
not. No name from a server of plain files does. -/
theorem listing_is_read_back_iff_names_are_lines {url : String} {config : Config}
    {server : Http.Server} {host : Host} {gitDir : Option String} {objects : LooseDir}
    {requests : List (Except RemoteError Request)} {forPush : Bool} {output : Bytes}
    (hstart : start url config server host gitDir objects = .ok s)
    (hlist : ((s.serve requests).2.2.list forPush).1 = .ok output) :
    ∃ d, ((s.serve requests).2.2.discover (if forPush then pushService else fetchService)).1 =
        .ok d ∧
      output = Utf8.encode (String.join (d.refs.map (·.line ++ "\n")) ++ "\n") ∧
      (readListing? output = some (d.refs.map Ref.listed) ↔ ∀ r ∈ d.refs, OneLine r.name) ∧
      ((∀ r ∈ d.refs, OneLine r.name) →
        (Utf8.decode? output).map (Text.fields '\n') = some (d.refs.map Ref.line ++ ["", ""])) ∧
      (d.smart = false → ∀ r ∈ d.refs, OneLine r.name) := by
  have hknown := admissible_serve (admissible_start hstart) requests
  have hfound := ((s.serve requests).2.2.admissible_discover
    (if forPush then pushService else fetchService) hknown).1
  rw [list] at hlist
  dsimp only at hlist
  cases hd : ((s.serve requests).2.2.discover
      (if forPush then pushService else fetchService)).1 with
  | error e =>
    rw [hd] at hlist
    cases hlist
  | ok d =>
    rw [hd] at hlist
    cases hlist
    obtain ⟨haddressed, hplain⟩ := hfound d hd
    refine ⟨d, rfl, congrArg Utf8.encode (refList_eq d.refs), ?_, fun hnames => ?_, hplain⟩
    · rw [readListing?, Utf8.decode?_encode, Option.bind_some]
      exact readRefs?_refList haddressed
    · rw [Utf8.decode?_encode, Option.map_some, fields_refList haddressed hnames]

end Session

/-- A smart server with a branch of a given name, and the branch `b`. -/
def namingServer (name : String) : Http.Server where
  responses := [{
    status := 200
    contentType := some "application/x-git-upload-pack-advertisement"
    body := packets [bytesOf "# service=git-upload-pack\n"] ++ flushPacket ++
      packets [(uniformId 1).hexBytes ++ bytesOf " " ++ Utf8.encode name ++ [0x0A],
        (uniformId 2).hexBytes ++ bytesOf " refs/heads/b\n"] ++ flushPacket }]

/-- A session with that server. -/
def namingSession (name : String) : Session where
  url := "http://h/"
  config := {}
  client := {
    server := namingServer name
    credential := { protocol := "http", host := "h" }
    helper := some ⟨["git", "credential"]⟩ }

theorem start_namingSession (name : String) :
    Session.start "http://h" {} (namingServer name) {} none {} = .ok (namingSession name) := by
  have hurl : splitUrl "http://h" = .ok ("http://h/", { protocol := "http", host := "h" }) := by
    decide +kernel
  have hwords : ({} : Config).credentialCommand = ["git", "credential"] := by decide +kernel
  rw [Session.start, hurl, hwords]
  rfl

/-- The refs of that server. -/
def namedRefs (name : String) : List Ref :=
  [{ name, oldId := uniformId 1 }, { name := "refs/heads/b", oldId := uniformId 2 }]

/-- The list of two branches is read back. -/
theorem listing_is_read_back_iff_names_are_lines_branches :
    Session.start "http://h" {} (namingServer "refs/heads/a") {} none {} =
      .ok (namingSession "refs/heads/a") ∧
    ∃ output, (((namingSession "refs/heads/a").serve []).2.2.list false).1 = .ok output ∧
      readListing? output =
        some [((uniformId 1).hex, "refs/heads/a"), ((uniformId 2).hex, "refs/heads/b")] := by
  have hstart := start_namingSession "refs/heads/a"
  have hlist : (((namingSession "refs/heads/a").serve []).2.2.list false).1 =
      .ok (Utf8.encode ((uniformId 1).hex ++ " refs/heads/a\n" ++ (uniformId 2).hex ++
        " refs/heads/b\n\n")) := by decide +kernel
  have hrefs : (((namingSession "refs/heads/a").serve []).2.2.discover
      Session.fetchService).1.map Discovery.refs = .ok (namedRefs "refs/heads/a") := by decide +kernel
  obtain ⟨d, hd, -, hread, -, -⟩ :=
    Session.listing_is_read_back_iff_names_are_lines hstart hlist
  have hd' : (((namingSession "refs/heads/a").serve []).2.2.discover Session.fetchService).1 =
      .ok d := hd
  rw [hd'] at hrefs
  have hnamed : d.refs = namedRefs "refs/heads/a" := Except.ok.inj hrefs
  rw [hnamed] at hread
  exact ⟨hstart, _, hlist, hread.mpr (by decide)⟩

/-- A smart server that ends a name with a line feed hides the refs behind it: the list has two refs,
and its caller reads one. -/
theorem line_feed_in_name_hides_refs :
    Session.start "http://h" {} (namingServer "refs/heads/a\n") {} none {} =
      .ok (namingSession "refs/heads/a\n") ∧
    ((namingSession "refs/heads/a\n").discover Session.fetchService).1.map Discovery.refs =
      .ok (namedRefs "refs/heads/a\n") ∧
    ∃ output, ((namingSession "refs/heads/a\n").list false).1 = .ok output ∧
      readListing? output = some [((uniformId 1).hex, "refs/heads/a")] :=
  ⟨start_namingSession _, by decide +kernel,
    Utf8.encode ((uniformId 1).hex ++ " refs/heads/a\n\n" ++ (uniformId 2).hex ++
      " refs/heads/b\n\n"), by decide +kernel, by decide +kernel⟩

end GitRemote
