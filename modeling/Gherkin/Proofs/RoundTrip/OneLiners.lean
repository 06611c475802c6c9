import Gherkin.Proofs.RoundTrip.Carried
import Gherkin.Document.Layout

/-!
# Pages of one-liners

No line of the page of a document that was read has a line feed in it, so the text of the page is
cut into the lines of the page.
-/

namespace Gherkin

open Page

namespace Page

variable {p q : Page}

theorem OneLiners.append (hp : p.OneLiners) (hq : q.OneLiners) : (p ++ q).OneLiners := by
  intro l hl
  rcases List.mem_append.1 hl with hl | hl
  · exact hp l hl
  · exact hq l hl

theorem OneLiners.nested (hp : p.OneLiners) : p.nested.OneLiners := by
  intro l hl
  obtain ⟨m, hm, rfl⟩ := List.mem_map.1 hl
  exact hp m hm

theorem oneLiners_flatMap {xs : List α} {page : α → Page} (h : ∀ x ∈ xs, (page x).OneLiners) :
    OneLiners (xs.flatMap page) := by
  intro l hl
  obtain ⟨x, hx, hl⟩ := List.mem_flatMap.1 hl
  exact h x hx l hl

theorem oneLiners_ofOption {x : Option α} {page : α → Page}
    (h : ∀ a, x = some a → (page a).OneLiners) : OneLiners (ofOption page x) := by
  cases x with
  | none =>
    intro l hl
    cases hl
  | some a => exact h a rfl

end Page

theorem Comment.Carried.oneLiners {c : Comment} (h : c.Carried) : c.page.OneLiners :=
  oneLiners_keywordLine h

theorem Table.Carried.oneLiners {t : Table} (h : t.Carried) : t.page.OneLiners := by
  refine OneLiners.append (oneLiners_flatMap ?_) (oneLiners_flatMap ?_)
  · intro r hr
    rw [line_row (h.rows r hr)]
    exact oneLiners_keywordLine (h.rows r hr)
  · intro c hc
    exact (h.comments c hc).oneLiners

theorem DocString.Carried.oneLiners {d : DocString} (h : d.Carried) : d.page.OneLiners := by
  refine ((oneLiners_keywordLine h.contentType).append (oneLiners_flatMap ?_)).append ?_
  · intro s hs l hl
    rw [List.mem_singleton.1 hl]
    exact (h.lines s hs).oneLine
  · rw [line_fence]
    exact oneLiners_keywordLine (carries_fence d.closing)

theorem Step.Carried.oneLiners {s : Step} (h : s.Carried) : s.page.OneLiners := by
  refine (oneLiners_keywordLine h.text).append (OneLiners.nested (OneLiners.append ?_ ?_))
  · exact oneLiners_flatMap fun c hc => (h.comments c hc).oneLiners
  · apply oneLiners_ofOption
    intro a ha
    have carried := h.argument a ha
    cases a with
    | table t => exact carried.oneLiners
    | docString d => exact carried.oneLiners

theorem Header.Carried.oneLiners {h : Header} {kind : Kind} {parts : Page}
    (carried : h.Carried kind) (below : parts.OneLiners) : (h.page kind parts).OneLiners := by
  refine (oneLiners_keywordLine carried.title).append (OneLiners.nested ?_)
  refine (OneLiners.append (oneLiners_flatMap ?_) (oneLiners_flatMap ?_)).append below
  · intro c hc
    exact (carried.comments c hc).oneLiners
  · intro d hd
    exact oneLiners_free (carried.descriptions d hd)

theorem oneLiners_steps {steps : List Step} (h : ∀ s ∈ steps, s.Carried) :
    OneLiners (steps.flatMap Step.page) :=
  oneLiners_flatMap fun s hs => (h s hs).oneLiners

theorem Scenario.oneLiners {s : Scenario} (h : s.container.Carried) : s.page.OneLiners :=
  h.header.oneLiners (oneLiners_steps h.steps)

theorem Item.oneLiners {i : Item} (h : ∀ c ∈ i.containers, c.Carried) : i.page.OneLiners := by
  cases i with
  | scenario s => exact Scenario.oneLiners (h _ List.mem_cons_self)
  | rule r =>
    have own : (⟨.rule, r.header, [], none⟩ : Container).Carried := h _ List.mem_cons_self
    refine own.header.oneLiners (oneLiners_flatMap ?_)
    intro s hs
    exact Scenario.oneLiners (h _ (by simp [containers]; exact .inr ⟨s, hs, rfl⟩))
  | outline o =>
    have own : (⟨.outline o.keyword, o.header, o.steps, none⟩ : Container).Carried :=
      h _ List.mem_cons_self
    have examples : o.examples.container.Carried := h _ (by simp [containers])
    refine own.header.oneLiners ((oneLiners_steps own.steps).append ?_)
    refine examples.header.oneLiners (oneLiners_ofOption ?_)
    intro t ht
    exact (examples.table t ht).oneLiners

theorem Document.Carried.oneLiners {d : Document} (h : d.Carried) : d.page.OneLiners := by
  apply OneLiners.append (oneLiners_flatMap fun c hc => (h.comments c hc).oneLiners)
  refine h.header.oneLiners (OneLiners.append ?_ ?_)
  · apply oneLiners_ofOption
    intro b hb
    have own : b.container.Carried := (h.background b hb).containers _ List.mem_cons_self
    exact own.header.oneLiners (oneLiners_steps own.steps)
  · exact oneLiners_flatMap fun i hi => Item.oneLiners (h.items i hi).containers

end Gherkin
