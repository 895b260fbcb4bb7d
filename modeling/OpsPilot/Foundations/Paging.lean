import Mathlib.Data.List.Basic
import Mathlib.Data.Option.Basic

/-!
# Scans by pages

A scan reads the rows of a store page by page, each page after the last row of the page before, and
tries one row after the other, each in a transaction of its own. Between its transactions the store
changes. The scan stops when it has got enough, when it has tried enough, when a page comes short,
or at an error.

* `Paging.tryRows`, `Paging.pages`: the rows of a page, and the pages.
* `length_visits_pages`, `length_got_pages`: how many rows are tried, and how much is got.
* **`pages_fuel`**: the scan stops by itself.
* **`pages_induction`**: what every page and every try keeps holds of the scan.
-/

namespace OpsPilot

universe u v w

/-- What a scan does: `arrive` is what happens before each of its transactions. -/
structure Paging (σ : Type u) (α : Type v) (β ε κ : Type w) where
  arrive : σ → σ
  /-- The rows after a cursor, as many as asked for at most. -/
  read : σ → Option κ → ℕ → List α
  /-- What a row gives, and the store after it. -/
  probe : σ → α → Except ε (List β × σ)
  key : α → κ

/-- A row that was tried, the store it was tried on, and what it gave. -/
structure Visit (σ : Type u) (α : Type v) (β : Type w) where
  row : α
  found : σ
  items : List β

/-- How far a scan is. The visits are in their order. -/
structure Scan (σ : Type u) (α : Type v) (β ε : Type w) where
  state : σ
  got : List β := []
  visits : List (Visit σ α β) := []
  failed : Option ε := none

namespace Paging

variable {σ : Type u} {α : Type v} {β ε κ : Type w} (P : Paging σ α β ε κ) (limit budget : ℕ)

/-- Try a row. -/
def tryRow (scan : Scan σ α β ε) (a : α) : Scan σ α β ε :=
  let found := P.arrive scan.state
  match P.probe found a with
  | .ok (items, s) => { scan with
      state := s, got := scan.got ++ items, visits := scan.visits ++ [⟨a, found, items⟩] }
  | .error e => { scan with
      state := found, visits := scan.visits ++ [⟨a, found, []⟩], failed := some e }

/-- Try the rows of a page, until there is enough or one fails. -/
def tryRows : List α → Scan σ α β ε → Scan σ α β ε
  | [], scan => scan
  | a :: rows, scan =>
    if scan.failed.isNone ∧ scan.got.length < limit then tryRows rows (P.tryRow scan a) else scan

/-- The page that a scan reads next. -/
def page (cursor : Option κ) (scan : Scan σ α β ε) : List α :=
  P.read (P.arrive scan.state) cursor (min limit (budget - scan.visits.length))

/-- Try the rows of that page. -/
def tryPage (cursor : Option κ) (scan : Scan σ α β ε) : Scan σ α β ε :=
  P.tryRows limit (P.page limit budget cursor scan) { scan with state := P.arrive scan.state }

/-- Read pages and try their rows. -/
def pages : ℕ → Option κ → Scan σ α β ε → Scan σ α β ε
  | 0, _, scan => scan
  | fuel + 1, cursor, scan =>
    if scan.failed.isNone ∧ scan.got.length < limit ∧ scan.visits.length < budget then
      match (P.page limit budget cursor scan).getLast? with
      | none => P.tryPage limit budget cursor scan
      | some last =>
        if (P.page limit budget cursor scan).length < min limit (budget - scan.visits.length) then
          P.tryPage limit budget cursor scan
        else pages fuel (some (P.key last)) (P.tryPage limit budget cursor scan)
    else scan

/-- The whole scan. -/
def run (s : σ) : Scan σ α β ε := P.pages limit budget budget none ⟨s, [], [], none⟩

variable {P limit budget}

/-! ## How much is tried and got -/

theorem length_visits_tryRow (scan : Scan σ α β ε) (a : α) :
    (P.tryRow scan a).visits.length = scan.visits.length + 1 := by
  unfold tryRow
  dsimp only
  split <;> exact List.length_append

variable (P limit) in
theorem length_visits_tryRows (rows : List α) (scan : Scan σ α β ε) :
    scan.visits.length ≤ (P.tryRows limit rows scan).visits.length ∧
      (P.tryRows limit rows scan).visits.length ≤ scan.visits.length + rows.length := by
  induction rows generalizing scan with
  | nil => exact ⟨Nat.le_refl _, Nat.le_refl _⟩
  | cons a rows ih =>
    rw [tryRows]
    split
    · have h := ih (P.tryRow scan a)
      rw [length_visits_tryRow] at h
      rw [List.length_cons]
      omega
    · rw [List.length_cons]
      omega

/-- A scan that goes on tries the first row of its page. -/
theorem lt_length_visits_tryRows {rows : List α} (hrows : rows ≠ []) (scan : Scan σ α β ε)
    (hgoes : scan.failed.isNone ∧ scan.got.length < limit) :
    scan.visits.length < (P.tryRows limit rows scan).visits.length := by
  obtain ⟨a, rows, rfl⟩ := List.exists_cons_of_ne_nil hrows
  rw [tryRows, if_pos hgoes]
  have h := (length_visits_tryRows P limit rows (P.tryRow scan a)).1
  rw [length_visits_tryRow] at h
  omega

/-- A scan that has stopped stays as it is. -/
theorem pages_of_not {fuel : ℕ} {cursor : Option κ} {scan : Scan σ α β ε}
    (h : ¬ (scan.failed.isNone ∧ scan.got.length < limit ∧ scan.visits.length < budget)) :
    P.pages limit budget fuel cursor scan = scan := by
  cases fuel with
  | zero => rfl
  | succ fuel => rw [pages, if_neg h]

/-- **How many rows are tried**: no more than the budget, when pages are no longer than asked. -/
theorem length_visits_pages (hread : ∀ s cursor n, (P.read s cursor n).length ≤ n)
    (fuel : ℕ) (cursor : Option κ) {scan : Scan σ α β ε} (h : scan.visits.length ≤ budget) :
    (P.pages limit budget fuel cursor scan).visits.length ≤ budget := by
  induction fuel generalizing cursor scan with
  | zero => exact h
  | succ fuel ih =>
    rw [pages]
    split
    · have hbudget : (P.tryPage limit budget cursor scan).visits.length ≤ budget := by
        have htried := (length_visits_tryRows P limit
          (P.page limit budget cursor scan) { scan with state := P.arrive scan.state }).2
        have hsize : (P.page limit budget cursor scan).length ≤ budget - scan.visits.length :=
          Nat.le_trans (hread _ _ _) (Nat.min_le_right _ _)
        exact Nat.le_trans htried (show scan.visits.length + _ ≤ budget by omega)
      split
      · exact hbudget
      · split
        · exact hbudget
        · exact ih _ hbudget
    · exact h

theorem length_got_tryRows (hprobe : ∀ s a r, P.probe s a = .ok r → r.1.length ≤ 1)
    (rows : List α) {scan : Scan σ α β ε} (h : scan.got.length ≤ limit) :
    (P.tryRows limit rows scan).got.length ≤ limit := by
  induction rows generalizing scan with
  | nil => exact h
  | cons a rows ih =>
    rw [tryRows]
    split
    · next hgoes =>
      refine ih ?_
      unfold tryRow
      dsimp only
      split
      · next items s hok =>
        have hone := hprobe _ _ _ hok
        rw [List.length_append]
        dsimp only at hone
        omega
      · exact h
    · exact h

/-- **How much is got**: no more than the limit, when a row gives one thing at most. -/
theorem length_got_pages (hprobe : ∀ s a r, P.probe s a = .ok r → r.1.length ≤ 1) (fuel : ℕ)
    (cursor : Option κ) {scan : Scan σ α β ε} (h : scan.got.length ≤ limit) :
    (P.pages limit budget fuel cursor scan).got.length ≤ limit := by
  induction fuel generalizing cursor scan with
  | zero => exact h
  | succ fuel ih =>
    rw [pages]
    split
    · have hpage : (P.tryPage limit budget cursor scan).got.length ≤ limit :=
        length_got_tryRows hprobe _ h
      split
      · exact hpage
      · split
        · exact hpage
        · exact ih _ hpage
    · exact h

/-! ## The end of a scan -/

/-- **The scan stops by itself**: beyond the rows it may still try, fuel changes nothing. -/
theorem pages_fuel {fuel : ℕ} (cursor : Option κ) {scan : Scan σ α β ε}
    (h : budget ≤ scan.visits.length + fuel) :
    P.pages limit budget (fuel + 1) cursor scan = P.pages limit budget fuel cursor scan := by
  induction fuel generalizing cursor scan with
  | zero =>
    rw [pages_of_not (by omega)]
    rfl
  | succ fuel ih =>
    rw [pages, pages]
    split
    · next hgoes =>
      split
      · rfl
      · next last hlast =>
        split
        · rfl
        · have hrows : P.page limit budget cursor scan ≠ [] := by
            intro hnil
            rw [hnil] at hlast
            cases hlast
          have hmore : scan.visits.length < (P.tryPage limit budget cursor scan).visits.length :=
            lt_length_visits_tryRows hrows { scan with state := P.arrive scan.state }
              ⟨hgoes.1, hgoes.2.1⟩
          exact ih _ (by omega)
    · rfl

section

variable {Inv : Option κ → List α → Scan σ α β ε → Prop}

variable (limit) in
/-- The rows of a page keep an invariant, and all of them are tried while the scan goes on. -/
theorem tryRows_induction
    (hprobe : ∀ cursor a rows scan, Inv cursor (a :: rows) scan → Inv cursor rows (P.tryRow scan a))
    {cursor : Option κ} {rows : List α} {scan : Scan σ α β ε} (h : Inv cursor rows scan) :
    ∃ left, Inv cursor left (P.tryRows limit rows scan) ∧
      ((P.tryRows limit rows scan).failed.isNone →
        (P.tryRows limit rows scan).got.length < limit → left = []) := by
  induction rows generalizing scan with
  | nil => exact ⟨[], h, fun _ _ => rfl⟩
  | cons a rows ih =>
    rw [tryRows]
    split
    · exact ih (hprobe _ _ _ _ h)
    · next hstops => exact ⟨a :: rows, h, fun hnone hlt => absurd ⟨hnone, hlt⟩ hstops⟩

variable (Inv) in
/-- **The rule of a scan.** An invariant of the cursor and the rows of the page that are left, kept
by every page and every try, holds at the end. -/
theorem pages_induction
    (hread : ∀ cursor n scan, Inv cursor [] scan →
      Inv (((P.read (P.arrive scan.state) cursor n).getLast?.map P.key).or cursor)
        (P.read (P.arrive scan.state) cursor n) { scan with state := P.arrive scan.state })
    (hprobe : ∀ cursor a rows scan, Inv cursor (a :: rows) scan → Inv cursor rows (P.tryRow scan a))
    (fuel : ℕ) {cursor : Option κ} {scan : Scan σ α β ε} (h : Inv cursor [] scan) :
    ∃ cursor' rows, Inv cursor' rows (P.pages limit budget fuel cursor scan) := by
  induction fuel generalizing cursor scan with
  | zero => exact ⟨cursor, [], h⟩
  | succ fuel ih =>
    rw [pages]
    split
    · obtain ⟨left, hleft, hall⟩ := tryRows_induction limit hprobe
        (hread cursor (min limit (budget - scan.visits.length)) scan h)
      change Inv (((P.page limit budget cursor scan).getLast?.map P.key).or cursor) left
        (P.tryPage limit budget cursor scan) at hleft
      split
      · exact ⟨_, _, hleft⟩
      · next last hlast =>
        split
        · exact ⟨_, _, hleft⟩
        · rw [hlast, Option.map_some, Option.some_or] at hleft
          by_cases hgoes : (P.tryPage limit budget cursor scan).failed.isNone ∧
              (P.tryPage limit budget cursor scan).got.length < limit
          · obtain rfl := hall hgoes.1 hgoes.2
            exact ih hleft
          · rw [pages_of_not fun hgo => hgoes ⟨hgo.1, hgo.2.1⟩]
            exact ⟨_, _, hleft⟩
    · exact ⟨cursor, [], h⟩

end

/-- What was got came from the visits, and what a visit gave from its try. -/
structure Traced (P : Paging σ α β ε κ) (scan : Scan σ α β ε) : Prop where
  got : scan.got = scan.visits.flatMap Visit.items
  items : ∀ visit ∈ scan.visits,
    visit.items = [] ∨ ∃ s, P.probe visit.found visit.row = .ok (visit.items, s)

theorem Traced.tryRow {scan : Scan σ α β ε} (h : Traced P scan) (a : α) :
    Traced P (P.tryRow scan a) := by
  unfold Paging.tryRow
  dsimp only
  split
  · next items s hok =>
    refine ⟨by simp [h.got], fun visit hvisit => ?_⟩
    rcases List.mem_append.1 hvisit with hvisit | hvisit
    · exact h.items visit hvisit
    · obtain rfl := List.mem_singleton.1 hvisit
      exact .inr ⟨s, hok⟩
  · refine ⟨by simp [h.got], fun visit hvisit => ?_⟩
    rcases List.mem_append.1 hvisit with hvisit | hvisit
    · exact h.items visit hvisit
    · obtain rfl := List.mem_singleton.1 hvisit
      exact .inl rfl

theorem traced_run (s : σ) : Traced P (P.run limit budget s) := by
  obtain ⟨-, -, h⟩ : ∃ (_ : Option κ) (_ : List α), Traced P (P.run limit budget s) :=
    pages_induction (fun _ _ scan => Traced P scan) (fun _ _ _ h => ⟨h.got, h.items⟩)
      (fun _ a _ _ h => h.tryRow a) budget ⟨rfl, fun visit hvisit => by cases hvisit⟩
  exact h

end Paging

end OpsPilot
