import Gherkin.Proofs.Ownership.Parts
import Mathlib.Data.List.Chain

/-!
# Documents, by what was read of them

The sections of a document are told one after the other. What has been told of a feature is a list
of entries in the order of the lines (`FeatureDraft.Told`), although the feature keeps its
background apart from its items. At the end of the lines every section has told its container, and
no line is outside of the sections but for the comments before the feature.
-/

namespace Gherkin

open Section

variable {l : Line} {ss : List Section} {quoted : List Line}

/-- A part of a feature is what was read of it. -/
inductive Part.Reads : Part → List Section → List Line → Prop where
  | background {b : BlockDraft} {s : Section} {quoted : List Line}
      (kind : s.header.kind = .background) (reads : b.Reads s quoted) :
      Reads (.background b) [s] quoted
  | scenario {c : ScenarioDraft} {s : Section} {quoted : List Line}
      (keyword : c.keyword = .scenario) (kind : s.header.kind = .scenario c.keyword)
      (reads : c.block.Reads s quoted) :
      Reads (.scenario c) [s] quoted
  | rule {r : RuleDraft} {ss : List Section} {quoted : List Line} (reads : r.Reads ss quoted) :
      Reads (.rule r) ss quoted
  | outline {o : OutlineDraft} {ss : List Section} {quoted : List Line}
      (reads : o.Reads ss quoted) : Reads (.outline o) ss quoted

namespace Part

variable {p p' : Part}

theorem Begins.reads (h : p.Begins l) : p.Reads [⟨l, []⟩] [] := by
  have container : l.kind.category = .container := by
    cases h <;> simp_all [Kind.category]
  have begun := BlockDraft.reads_start container
  cases h with
  | background kind => exact .background kind begun
  | scenario kind => exact .scenario rfl kind begun
  | rule kind => exact .rule (.notes rfl rfl kind begun)
  | outline kind => exact .outline (.steps rfl kind begun)

/-- Each line that a part takes is the next one of its sections. -/
theorem Reads.feed (h : p.Reads ss quoted) (fed : p.feed l = .takes p') :
    ∃ ss' quoted', written ss' quoted' = written ss quoted ++ [l] ∧ p'.Reads ss' quoted' := by
  cases h with
  | background kind reads =>
    obtain ⟨b, hb, rfl⟩ := Verdict.map_eq_takes_iff.1 fed
    have taken := BlockDraft.takes_of_feed hb
    rw [← kind] at taken
    obtain ⟨s', quoted', grows, reads⟩ := taken.reads reads
    refine ⟨[s'], quoted', BlockDraft.written_of_grows grows, .background ?_ reads⟩
    rw [grows.header, kind]
  | @scenario c s _ keyword kind reads =>
    obtain ⟨c', hc, rfl⟩ := Verdict.map_eq_takes_iff.1 fed
    obtain ⟨b, hb, rfl⟩ := Verdict.map_eq_takes_iff.1 hc
    have taken := BlockDraft.takes_of_feed hb
    rw [← kind] at taken
    obtain ⟨s', quoted', grows, reads⟩ := taken.reads reads
    refine ⟨[s'], quoted', BlockDraft.written_of_grows grows, .scenario keyword ?_ reads⟩
    rw [grows.header, kind]
  | rule reads =>
    obtain ⟨r, hr, rfl⟩ := Verdict.map_eq_takes_iff.1 fed
    obtain ⟨ss', quoted', grows, reads⟩ := (RuleDraft.takes_of_feed hr).reads reads
    exact ⟨ss', quoted', grows, .rule reads⟩
  | outline reads =>
    obtain ⟨o, ho, rfl⟩ := Verdict.map_eq_takes_iff.1 fed
    obtain ⟨ss', quoted', grows, reads⟩ := (OutlineDraft.takes_of_feed ho).reads reads
    exact ⟨ss', quoted', grows, .outline reads⟩

end Part

/-- One more element goes on with a chain if the last one allows it. -/
theorem isChain_snoc {r : α → α → Prop} {xs : List α} {x : α} (h : xs.IsChain r)
    (last : ∀ y, xs.getLast? = some y → r y x) : (xs ++ [x]).IsChain r := by
  rw [List.isChain_append]
  refine ⟨h, List.isChain_singleton x, ?_⟩
  intro y hy z hz
  rw [List.head?_cons, Option.mem_some_iff] at hz
  rw [← hz]
  exact last y hy

namespace FeatureDraft

variable {f g : FeatureDraft} {entries : List Entry}

/-- What the sections have told of a feature: its header, and what stands below it in the order
of the lines. -/
structure Told (f : FeatureDraft) (ss : List Section) (entries : List Entry) : Prop where
  finished : Finished ss (⟨.feature, f.header, [], none⟩ :: entries.flatMap Entry.containers)
  background : entries.filterMap Entry.background? = f.background.toList
  items : entries.filterMap Entry.item? = f.items
  apart : entries.IsChain Entry.Apart
  legal : ∀ e ∈ entries, e.Legal

/-- A feature is what was read of it: the notes below its header, or what its sections have told
before its current part, and that part. -/
inductive Reads (f : FeatureDraft) : List Section → List Line → Prop where
  | opening {s : Section} (state : f.part = .opening) (none : f.background = none)
      (fresh : f.items = []) (kind : s.header.kind = .feature)
      (reads : (BlockDraft.ofHeader f.header).Reads s []) : f.Reads [s] []
  | part {done ss : List Section} {quoted : List Line} {entries : List Entry}
      (begun : f.part ≠ .opening) (told : f.Told done entries) (reads : f.part.Reads ss quoted)
      (single : ∀ b, f.part = .background b → f.background = none)
      (apart : ∀ c, f.part = .scenario c → ∀ r, entries.getLast? ≠ some (.item (.rule r))) :
      f.Reads (done ++ ss) quoted

theorem reads_start (h : l.kind = .feature) : (start l).Reads [⟨l, []⟩] [] := by
  refine .opening rfl rfl rfl h (BlockDraft.reads_start ?_)
  simp [h, Kind.category]

/-- The current part has no say in what has been told. -/
theorem Told.setPart (h : f.Told ss entries) (p : Part) : Told { f with part := p } ss entries :=
  ⟨h.finished, h.background, h.items, h.apart, h.legal⟩

/-- One more entry has been told. -/
theorem Told.snoc {done : List Section} (h : f.Told done entries) {e : Entry}
    (finished : Finished ss e.containers) (header : g.header = f.header)
    (background : f.background.toList ++ e.background?.toList = g.background.toList)
    (items : f.items ++ e.item?.toList = g.items)
    (apart : ∀ x, entries.getLast? = some x → x.Apart e) (legal : e.Legal) :
    g.Told (done ++ ss) (entries ++ [e]) where
  finished := by
    have longer := h.finished.append finished
    rw [header]
    simpa using longer
  background := by
    rw [List.filterMap_append, h.background, ← background]
    cases hb : e.background? <;> simp [hb]
  items := by
    rw [List.filterMap_append, h.items, ← items]
    cases hi : e.item? <;> simp [hi]
  apart := isChain_snoc h.apart apart
  legal := by
    intro x hx
    rcases List.mem_append.1 hx with hx | hx
    · exact h.legal x hx
    · rw [List.mem_singleton.1 hx]
      exact legal

/-- One more item has been told. -/
theorem Told.addItem {done : List Section} (h : f.Told done entries) {i : Item}
    (finished : Finished ss i.containers)
    (apart : ∀ x, entries.getLast? = some x → x.Apart (.item i)) (legal : (Entry.item i).Legal) :
    (f.addItem i).Told (done ++ ss) (entries ++ [.item i]) := by
  refine h.snoc (e := .item i) finished rfl ?_ ?_ apart legal
  · simp [FeatureDraft.addItem, Entry.background?]
  · simp [FeatureDraft.addItem, Entry.item?]

/-- A background that may end here has told its container, and its steps are legal ones. -/
theorem background_finished {b : BlockDraft} {s : Section} (reads : b.Reads s quoted)
    (kind : s.header.kind = .background) {c : Background} (closed : b.closeBackground = .ok c) :
    quoted = [] ∧ Finished [s] [c.container] ∧ (Entry.background c).Legal := by
  obtain ⟨closed, nonempty, header⟩ := BlockDraft.closeBackground_eq_ok closed
  obtain ⟨rfl, steps⟩ := reads.close closed
  obtain ⟨-, finished⟩ := reads.finished closed (by simp [kind])
  rw [kind, ← header] at finished
  refine ⟨rfl, finished, nonempty, ?_⟩
  rw [steps, ← kind]
  intro st hst
  obtain ⟨t, ht, rfl⟩ := List.mem_map.1 hst
  exact reads.holds t ht

/-- A feature whose current part ends has told all of its sections; the last entry is that part. -/
theorem Settles.told (h : f.Settles g) (reads : f.Reads ss quoted) :
    quoted = [] ∧ ∃ entries, g.Told ss entries ∧
      ∀ r, entries.getLast? = some (.item (.rule r)) → ∃ d, f.part = .rule d := by
  cases reads with
  | opening state none fresh kind reads =>
    cases h with
    | opening =>
      obtain ⟨-, finished⟩ := reads.finished (BlockDraft.close_of_none rfl) (by simp [kind])
      rw [kind] at finished
      exact ⟨rfl, [], ⟨finished, by simp [none], by simp [fresh], .nil, by simp⟩, by simp⟩
    | background h => simp [state] at h
    | scenario h => simp [state] at h
    | rule h => simp [state] at h
    | outline h => simp [state] at h
  | @part done ss _ entries begun told reads single apart =>
    cases h with
    | opening h => exact absurd h begun
    | @background b c h closed =>
      rw [h] at reads
      cases reads with
      | background kind reads =>
        obtain ⟨rfl, finished, legal⟩ := background_finished reads kind closed
        refine ⟨rfl, _, told.snoc (e := .background c) finished rfl ?_ ?_ ?_ legal, by simp⟩
        · simp [single b h, Entry.background?]
        · simp [Entry.item?]
        · rintro (x | ⟨s | r | o⟩) - <;> trivial
    | @scenario d c h closed =>
      rw [h] at reads
      cases reads with
      | scenario keyword kind reads =>
        obtain ⟨rfl, same, finished⟩ := ScenarioDraft.finished reads kind closed
        refine ⟨rfl, _, told.addItem (i := .scenario c) finished ?_ (same.trans keyword), by simp⟩
        rintro (x | ⟨s | r | o⟩) hx
        · trivial
        · trivial
        · exact absurd hx (apart d h r)
        · trivial
    | @rule d c h closed =>
      rw [h] at reads
      cases reads with
      | rule reads =>
        obtain ⟨scenarios, header⟩ := RuleDraft.closeScenarios_of_close closed
        obtain ⟨rfl, finished⟩ := reads.closeScenarios scenarios
        rw [← header] at finished
        refine ⟨rfl, _, told.addItem (i := .rule c) finished ?_ trivial, fun r _ => ⟨d, h⟩⟩
        rintro (x | ⟨s | r | o⟩) - <;> trivial
    | @outline d c h closed =>
      rw [h] at reads
      cases reads with
      | outline reads =>
        obtain ⟨rfl, finished⟩ := reads.close closed
        refine ⟨rfl, _, told.addItem (i := .outline c) finished ?_ trivial, by simp⟩
        rintro (x | ⟨s | r | o⟩) - <;> trivial

/-- A part that takes a line stays a background, or a scenario. -/
theorem part_of_takes {p p' : Part} (h : p.feed l = .takes p') :
    (∀ b, p' = .background b → ∃ b', p = .background b') ∧
      ∀ c, p' = .scenario c → ∃ c', p = .scenario c' := by
  cases p with
  | opening => cases h
  | background b =>
    obtain ⟨b', -, rfl⟩ := Verdict.map_eq_takes_iff.1 h
    simp
  | scenario c =>
    obtain ⟨c', -, rfl⟩ := Verdict.map_eq_takes_iff.1 h
    simp
  | rule r =>
    obtain ⟨r', -, rfl⟩ := Verdict.map_eq_takes_iff.1 h
    simp
  | outline o =>
    obtain ⟨o', -, rfl⟩ := Verdict.map_eq_takes_iff.1 h
    simp

/-- A rule leaves no scenario to the feature. -/
theorem rule_takes_scenario {r : RuleDraft} {k : ScenarioKeyword} (kind : l.kind = .scenario k) :
    r.feed l ≠ .leaves := by
  have accepted : ∀ r : RuleDraft, r.accept l ≠ .leaves := by
    intro r
    simp [RuleDraft.accept, kind]
  intro h
  simp only [RuleDraft.feed] at h
  split at h
  · exact accepted _ h
  · split at h
    · cases h
    · exact accepted _ h
    · cases h

theorem Takes.part_ne_opening {p : Part} (h : p.Begins l) : p ≠ .opening := by
  rintro rfl
  cases h

/-- A line that the current part takes is the next one of its sections. -/
theorem Reads.push_part (h : f.Reads ss quoted) {p : Part} (takes : f.part.feed l = .takes p) :
    ∃ ss' quoted', written ss' quoted' = written ss quoted ++ [l] ∧
      Reads { f with part := p } ss' quoted' := by
  cases h with
  | opening state =>
    rw [state] at takes
    cases takes
  | @part done ss _ entries begun told reads single apart =>
    obtain ⟨ss', quoted', grows, longer⟩ := reads.feed takes
    obtain ⟨background, scenario⟩ := part_of_takes takes
    refine ⟨done ++ ss', quoted', ?_, .part ?_ (told.setPart p) longer ?_ ?_⟩
    · rw [written_append, written_append, grows, List.append_assoc]
    · rintro rfl
      cases longer
    · intro b hb
      obtain ⟨b', same⟩ := background b hb
      exact single b' same
    · intro c hc
      obtain ⟨c', same⟩ := scenario c hc
      exact apart c' same

/-- A feature that reads no part yet is read by the notes below its header. -/
theorem Reads.notes (h : f.Reads ss quoted) (state : f.part = .opening) :
    ∃ s, ss = [s] ∧ quoted = [] ∧ f.background = none ∧ f.items = [] ∧ s.header.kind = .feature ∧
      (BlockDraft.ofHeader f.header).Reads s [] := by
  cases h with
  | opening _ none fresh kind reads => exact ⟨_, rfl, rfl, none, fresh, kind, reads⟩
  | part begun => exact absurd state begun

/-- Each line that a feature reads is the next one of its sections. -/
theorem Takes.reads (taken : f.Takes l g) (h : f.Reads ss quoted) :
    ∃ ss' quoted', written ss' quoted' = written ss quoted ++ [l] ∧ g.Reads ss' quoted' := by
  cases taken with
  | description kind state =>
    obtain ⟨s, rfl, rfl, none, fresh, own, reads⟩ := h.notes state
    have longer := reads.push_description kind (by simp [BlockDraft.Quoting, BlockDraft.ofHeader])
    refine ⟨[s.push (.line l)], [], ?_, .opening state none fresh own longer⟩
    simp [written, Section.lines_push]
  | comment kind state =>
    obtain ⟨s, rfl, rfl, none, fresh, own, reads⟩ := h.notes state
    have longer := reads.push_comment kind rfl
    refine ⟨[s.push (.line l)], [], ?_, .opening state none fresh own longer⟩
    simp [written, Section.lines_push]
  | part takes => exact h.push_part takes
  | @header g p left settled begins single =>
    obtain ⟨rfl, entries, told, last⟩ := settled.told h
    refine ⟨ss ++ [⟨l, []⟩], [], ?_, .part ?_ (told.setPart _) begins.reads ?_ ?_⟩
    · simp [written, Section.lines]
    · exact Takes.part_ne_opening begins
    · rintro b rfl
      cases begins with
      | background kind => exact single kind
    · rintro c rfl r hr
      cases begins with
      | scenario kind =>
        obtain ⟨d, hd⟩ := last r hr
        rw [hd, Part.feed, Verdict.map_eq_leaves_iff] at left
        exact rule_takes_scenario kind left

end FeatureDraft

/-- A draft is what was read of it. -/
inductive Draft.Reads : Draft → List Line → Prop where
  | preamble {ls : List Line} (comments : ∀ l ∈ ls, l.kind = .comment) :
      Reads (.preamble (ls.map Line.comment)) ls
  | body {lead : List Line} {f : FeatureDraft} {ss : List Section} {quoted : List Line}
      (comments : ∀ l ∈ lead, l.kind = .comment) (reads : f.Reads ss quoted) :
      Reads (.body (lead.map Line.comment) f) (lead ++ written ss quoted)

namespace Draft

variable {d d' : Draft} {ls : List Line}

/-- Each line that a draft reads is the next one of what was read of it. -/
theorem Reads.feed (h : d.Reads ls) (fed : d.feed l = .ok d') : d'.Reads (ls ++ [l]) := by
  cases h with
  | preamble comments =>
    cases hk : l.kind <;> simp only [Draft.feed, hk, Except.ok.injEq, reduceCtorEq] at fed
    case comment =>
      subst fed
      have longer : ∀ m ∈ ls ++ [l], m.kind = .comment := by
        intro m hm
        rcases List.mem_append.1 hm with hm | hm
        · exact comments m hm
        · rw [List.mem_singleton.1 hm]
          exact hk
      simpa using Reads.preamble longer
    case feature =>
      subst fed
      simpa [written, Section.lines] using Reads.body comments (FeatureDraft.reads_start hk)
  | @body lead f ss quoted comments reads =>
    cases hf : f.feed l with
    | error v => simp [Draft.feed, hf, bind, Except.bind] at fed
    | ok g =>
      simp only [Draft.feed, hf, bind, Except.bind, pure, Except.pure, Except.ok.injEq] at fed
      subst fed
      obtain ⟨ss', quoted', grows, longer⟩ := (FeatureDraft.takes_of_feed hf).reads reads
      rw [List.append_assoc, ← grows]
      exact .body comments longer

theorem Reads.feedAll {ms : List Line} (h : d.Reads ls) (fed : d.feedAll ms = .ok d') :
    d'.Reads (ls ++ ms) := by
  induction ms generalizing d ls with
  | nil =>
    simp only [Draft.feedAll, Except.ok.injEq] at fed
    subst fed
    simpa using h
  | cons m ms ih =>
    cases hm : d.feed m with
    | error v => simp [Draft.feedAll, hm, bind, Except.bind] at fed
    | ok e =>
      simp only [Draft.feedAll, hm, bind, Except.bind] at fed
      simpa using ih (h.feed hm) fed

end Draft

/-- The document is what the lines say: comments, and then sections that tell its containers. -/
structure Document.Told (d : Document) (lead : List Line) (ss : List Section)
    (entries : List Entry) : Prop where
  preamble : ∀ l ∈ lead, l.kind = .comment
  comments : d.comments = lead.map Line.comment
  sound : ∀ s ∈ ss, s.Proper ∧ s.Regular
  containers : ss.map Section.container =
    d.feature.container :: entries.flatMap Entry.containers
  background : entries.filterMap Entry.background? = d.feature.background.toList
  items : entries.filterMap Entry.item? = d.feature.items
  apart : entries.IsChain Entry.Apart
  legal : ∀ e ∈ entries, e.Legal

/-- The lines of a document are cut into sections that tell its containers. -/
theorem Document.exists_told {ls : List Line} {d : Document} (h : Document.ofLines ls = .ok d) :
    ∃ lead ss entries, ls = lead ++ ss.flatMap Section.lines ∧ d.Told lead ss entries := by
  have nothing : ∀ l ∈ ([] : List Line), l.kind = .comment := by simp
  have start : Draft.empty.Reads [] := .preamble nothing
  cases fed : Draft.empty.feedAll ls with
  | error v => simp [ofLines, fed, bind, Except.bind] at h
  | ok draft =>
    have finish : draft.finish = .ok d := by
      simpa [ofLines, fed, bind, Except.bind] using h
    have reads := start.feedAll fed
    rw [List.nil_append] at reads
    cases reads with
    | preamble => cases finish
    | @body lead f ss quoted comments reads =>
      cases settle : f.settle with
      | error v =>
        simp [Draft.finish, FeatureDraft.finish, settle, bind, Except.bind] at finish
      | ok g =>
        simp only [Draft.finish, FeatureDraft.finish, settle, bind, Except.bind, pure, Except.pure,
          Except.ok.injEq] at finish
        subst finish
        obtain ⟨rfl, entries, told, -⟩ := (FeatureDraft.settles_of_settle settle).told reads
        refine ⟨lead, ss, entries, by simp [written], comments, rfl, told.finished.sound,
          told.finished.told, told.background, told.items, told.apart, told.legal⟩

/-- **Ownership.** Each line of a document is a comment before the feature or stands in one
section, and each section tells one container: the descriptions, steps, arguments and comments of
the container are those that the section says, and there is no other data in the section. -/
theorem Document.lines_owned {ls : List Line} {d : Document} (h : Document.ofLines ls = .ok d) :
    ∃ (lead : List Line) (ss : List Section) (entries : List Entry),
      ls = lead ++ ss.flatMap Section.lines ∧
      (∀ l ∈ lead, l.kind = .comment) ∧
      d.comments = lead.map Line.comment ∧
      (∀ s ∈ ss, s.Proper ∧ s.Regular) ∧
      ss.map Section.container = d.feature.container :: entries.flatMap Entry.containers ∧
      entries.filterMap Entry.background? = d.feature.background.toList ∧
      entries.filterMap Entry.item? = d.feature.items ∧
      entries.IsChain Entry.Apart := by
  obtain ⟨lead, ss, entries, cut, told⟩ := exists_told h
  exact ⟨lead, ss, entries, cut, told.preamble, told.comments, told.sound, told.containers,
    told.background, told.items, told.apart⟩

/-- The lines of a feature whose scenario has a step with a table, each with a comment below, and
the headers with descriptions as well. -/
def commentedLines : List Line :=
  [⟨.comment, "c1", 1, "# c1"⟩, ⟨.feature, "F", 2, "Feature: F"⟩,
   ⟨.description, "so that", 3, "  so that"⟩, ⟨.comment, "c2", 4, "# c2"⟩,
   ⟨.description, "it is so", 5, "\tit is so"⟩, ⟨.scenario .scenario, "S", 6, "Scenario: S"⟩,
   ⟨.description, "why", 7, "why"⟩, ⟨.step .given, "x", 8, "Given x"⟩,
   ⟨.comment, "c3", 9, "# c3"⟩, ⟨.row, "|a|", 10, "|a|"⟩, ⟨.comment, "c4", 11, "# c4"⟩]

/-- The document of `commentedLines`. -/
def commentedDocument : Document :=
  let table : Table := ⟨⟨10, "|a|"⟩, [], [⟨11, "c4"⟩]⟩
  let step : Step := ⟨.given, 8, "x", [⟨9, "c3"⟩], some (.table table)⟩
  ⟨[⟨1, "c1"⟩], ⟨⟨2, "F", [⟨3, "  so that"⟩, ⟨5, "\tit is so"⟩], [⟨4, "c2"⟩]⟩, none,
    [.scenario ⟨.scenario, ⟨6, "S", [⟨7, "why"⟩], []⟩, [step]⟩]⟩⟩

theorem commentedDocument_lines_owned :
    Document.ofLines commentedLines = .ok commentedDocument ∧
      ∃ (lead : List Line) (ss : List Section) (entries : List Entry),
        commentedLines = lead ++ ss.flatMap Section.lines ∧
        commentedDocument.comments = lead.map Line.comment ∧
        (∀ s ∈ ss, s.Proper ∧ s.Regular) ∧
        ss.map Section.container =
          commentedDocument.feature.container :: entries.flatMap Entry.containers ∧
        entries.filterMap Entry.item? = commentedDocument.feature.items := by
  have read : Document.ofLines commentedLines = .ok commentedDocument := by rfl
  obtain ⟨lead, ss, entries, cut, -, comments, sound, told, -, items, -⟩ :=
    Document.lines_owned read
  exact ⟨read, lead, ss, entries, cut, comments, sound, told, items⟩

end Gherkin
