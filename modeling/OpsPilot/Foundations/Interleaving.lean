import OpsPilot.Foundations.Transaction
import OpsPilot.Foundations.Transition

/-!
# Concurrent transactions

A request is served by one transaction: a `Program` of statements, each of which sees what is
committed when it runs (READ COMMITTED); a statement may first wait for locks, which the
transaction then holds to its end. What it writes becomes visible at its commit, all at once. A
`Service` serves any number of requests at the same time, statement by statement in any order,
next to other transactions that leave the locked rows alone.

* `Program.Sound`: what holds of the value of a program, whatever others do between its statements.
  `Sound.bind`, `Sound.committed_bind` and `Sound.acquire_bind` walk through a program, and
  `Sound.frame` carries along what others do not touch; `Sound.zoom` runs a program on a part of the
  state.
* **`Service.reachable_sound`**: if every program is sound, and each commit changes only what its
  transaction has locked, then every reachable state keeps the invariant, and every commit does
  what its specification says of the state it is made in.
* `Service.run_alone`: a request that runs alone is a run.
-/

namespace OpsPilot

universe u v

variable {σ Λ ε α β : Type u} {τ ι : Type v}

/-- The statements a transaction has still to run, on a state `σ` with locks `Λ`, for the value
`α`; `fail` rolls the transaction back. -/
inductive Program (σ Λ ε α : Type u)
  | pure (a : α)
  | read (next : σ → Program σ Λ ε α)
  | lock (locks : List Λ) (next : σ → Program σ Λ ε α)
  | fail (e : ε)

/-- The value of a transaction is its writes, made on what is committed then. -/
abbrev Transaction (σ Λ ε α : Type u) := Program σ Λ ε (σ → Except ε (α × σ))

namespace Program

/-- Go on with the value of a program. -/
def bind : Program σ Λ ε α → (α → Program σ Λ ε β) → Program σ Λ ε β
  | pure a, f => f a
  | read next, f => read fun s => (next s).bind f
  | lock locks next, f => lock locks fun s => (next s).bind f
  | fail e, _ => fail e

instance : Monad (Program σ Λ ε) where
  pure := pure
  bind := bind

/-- What is committed now. -/
def committed : Program σ Λ ε σ := read pure

/-- Wait for locks, and see what is committed then. -/
def acquire (locks : List Λ) : Program σ Λ ε σ := lock locks pure

/-- The result of a check. -/
def lift : Except ε α → Program σ Λ ε α
  | .ok a => pure a
  | .error e => fail e

/-- Run a program with nobody else around. -/
def alone : Program σ Λ ε α → σ → Except ε α
  | pure a, _ => .ok a
  | read next, s | lock _ next, s => (next s).alone s
  | fail e, _ => .error e

theorem alone_bind (p : Program σ Λ ε α) (f : α → Program σ Λ ε β) (s : σ) :
    (p >>= f).alone s = (p.alone s >>= fun a => (f a).alone s) := by
  induction p with
  | pure a | fail e => rfl
  | read next ih | lock locks next ih => exact ih s

/-- The program on a part `view` of a bigger state, with its locks and its errors renamed. -/
def zoom {τ Λ' ε' : Type u} (view : τ → σ) (name : Λ → Λ') (err : ε → ε') :
    Program σ Λ ε α → Program τ Λ' ε' α
  | pure a => pure a
  | read next => read fun t => (next (view t)).zoom view name err
  | lock locks next => lock (locks.map name) fun t => (next (view t)).zoom view name err
  | fail e => fail (err e)

/-- However others move the state between the statements (`Rely`, by the locks held), what `Post`
says holds of the value, with the locks held then and what is committed then. -/
def Sound (Rely : List Λ → σ → σ → Prop) (Post : List Λ → σ → α → Prop) :
    List Λ → Program σ Λ ε α → σ → Prop
  | held, pure a, s => ∀ t, Rely held s t → Post held t a
  | held, read next, s => ∀ t, Rely held s t → Sound Rely Post held (next t) t
  | held, lock locks next, s =>
    ∀ t, Rely held s t → Sound Rely Post (locks ++ held) (next t) t
  | _, fail _, _ => True

/-- What the others may do: nothing at all, or one thing after another. -/
structure Stable (Rely : List Λ → σ → σ → Prop) : Prop where
  refl : ∀ {held a b}, Rely held a b → ∀ held', Rely held' b b
  trans : ∀ {held a b c}, Rely held a b → Rely held b c → Rely held a c

namespace Sound

variable {Rely : List Λ → σ → σ → Prop} {Post : List Λ → σ → α → Prop}
  {Post' : List Λ → σ → β → Prop} {held : List Λ} {p : Program σ Λ ε α} {s t : σ}

/-- What others do leaves a program sound. -/
theorem stable (hR : Stable Rely) (h : p.Sound Rely Post held s) (hst : Rely held s t) :
    p.Sound Rely Post held t := by
  cases p with
  | pure a | read next | lock locks next => exact fun u hu => h u (hR.trans hst hu)
  | fail e => trivial

theorem bind (hR : Stable Rely) {f : α → Program σ Λ ε β}
    (h : p.Sound Rely (fun held t a => (f a).Sound Rely Post' held t) held s)
    (hs : Rely held s s) : (p >>= f).Sound Rely Post' held s := by
  induction p generalizing held s with
  | pure a => exact h s hs
  | read next ih => exact fun t ht => ih t (h t ht) (hR.refl ht _)
  | lock locks next ih => exact fun t ht => ih t (h t ht) (hR.refl ht _)
  | fail e => trivial

/-- A statement that reads. -/
theorem committed_bind {f : σ → Program σ Λ ε β}
    (h : ∀ t, Rely held s t → (f t).Sound Rely Post' held t) :
    (committed >>= f).Sound Rely Post' held s := h

/-- A statement that locks. -/
theorem acquire_bind {locks : List Λ} {f : σ → Program σ Λ ε β}
    (h : ∀ t, Rely held s t → (f t).Sound Rely Post' (locks ++ held) t) :
    (acquire locks >>= f).Sound Rely Post' held s := h

theorem lift_bind {r : Except ε α} {f : α → Program σ Λ ε β}
    (h : ∀ a, r = .ok a → (f a).Sound Rely Post' held s) :
    (lift r >>= f).Sound Rely Post' held s := by
  cases r with
  | error e => trivial
  | ok a => exact h a rfl

theorem mono {Post₂ : List Λ → σ → α → Prop} (h : p.Sound Rely Post held s)
    (himp : ∀ held t a, Post held t a → Post₂ held t a) : p.Sound Rely Post₂ held s := by
  induction p generalizing held s with
  | pure a => exact fun t ht => himp held t a (h t ht)
  | read next ih => exact fun t ht => ih t (h t ht)
  | lock locks next ih => exact fun t ht => ih t (h t ht)
  | fail e => trivial

/-- A property of every value holds of any program's. -/
theorem of_forall (h : ∀ held t a, Post held t a) : p.Sound Rely Post held s := by
  induction p generalizing held s with
  | pure a => exact fun t _ => h held t a
  | read next ih => exact fun t _ => ih t
  | lock locks next ih => exact fun t _ => ih t
  | fail e => trivial

/-- **Frame rule.** What others do not touch while the locks are held is there at the end. -/
theorem frame {F : List Λ → σ → Prop} (hR : ∀ {held a b}, F held a → Rely held a b → F held b)
    (hlock : ∀ {locks held a}, F held a → F (locks ++ held) a) (h : p.Sound Rely Post held s)
    (hs : F held s) : p.Sound Rely (fun held t a => Post held t a ∧ F held t) held s := by
  induction p generalizing held s with
  | pure a => exact fun t ht => ⟨h t ht, hR hs ht⟩
  | read next ih => exact fun t ht => ih t (h t ht) (hR hs ht)
  | lock locks next ih => exact fun t ht => ih t (h t ht) (hlock (hR hs ht))
  | fail e => trivial

/-- **Zoom rule.** What a program relies on in its part of the state, the bigger state grants. -/
theorem zoom {τ Λ' ε' : Type u} {view : τ → σ} {name : Λ → Λ'} {err : ε → ε'}
    {Rely' : List Λ' → τ → τ → Prop}
    (hrely : ∀ held held' a b, (∀ l ∈ held, name l ∈ held') → Rely' held' a b →
      Rely held (view a) (view b)) {held' : List Λ'} {a : τ} (hheld : ∀ l ∈ held, name l ∈ held')
    (h : p.Sound Rely Post held (view a)) :
    (p.zoom view name err).Sound Rely' (fun held' t v =>
      ∃ held, (∀ l ∈ held, name l ∈ held') ∧ Post held (view t) v) held' a := by
  induction p generalizing held held' a with
  | pure v => exact fun t ht => ⟨held, hheld, h _ (hrely _ _ _ _ hheld ht)⟩
  | read next ih => exact fun t ht => ih _ hheld (h _ (hrely _ _ _ _ hheld ht))
  | lock locks next ih =>
    intro t ht
    refine ih _ (fun l hl => ?_) (h _ (hrely _ _ _ _ hheld ht))
    rcases List.mem_append.1 hl with hnew | hold
    · exact List.mem_append_left _ (List.mem_map_of_mem hnew)
    · exact List.mem_append_right _ (hheld l hold)
  | fail e => trivial

end Sound

end Program

/-- A transaction on its way: the request it serves, the locks it holds, the statements left. -/
structure Task (σ Λ ε α : Type u) (τ : Type v) where
  request : τ
  held : List Λ := []
  rest : Transaction σ Λ ε α

/-- What is committed, and the transactions on their way. -/
structure World (σ Λ ε α : Type u) (τ : Type v) where
  db : σ
  tasks : ℕ → Option (Task σ Λ ε α τ) := fun _ => none

/-- A transaction for each request. `Other` are the transactions of anybody else, and `Spares l`
says that a change leaves what the lock `l` covers alone. -/
structure Service (σ Λ ε α : Type u) (τ ι : Type v) where
  program : τ → Transaction σ Λ ε α
  Init : σ → Prop
  Other : σ → ι → σ → Prop
  Spares : Λ → σ → σ → Prop

/-- What happens: a request comes in, a transaction runs its next statement, commits or is rolled
back, or anybody else commits. -/
inductive Happening (α : Type u) (τ ι : Type v)
  | start (i : ℕ) (request : τ)
  | proceed (i : ℕ)
  | commit (i : ℕ) (request : τ) (answer : α)
  | rollback (i : ℕ)
  | other (label : ι)

namespace Service

variable (S : Service σ Λ ε α τ ι)

open Function in
/-- The steps of a service. A lock is given when no other transaction holds it. -/
inductive Step : World σ Λ ε α τ → Happening α τ ι → World σ Λ ε α τ → Prop
  | start {w i request} (hfree : w.tasks i = none) :
      Step w (.start i request)
        { w with tasks := update w.tasks i (some { request, rest := S.program request }) }
  | read {w i request held next} (htask : w.tasks i = some ⟨request, held, .read next⟩) :
      Step w (.proceed i)
        { w with tasks := update w.tasks i (some ⟨request, held, next w.db⟩) }
  | lock {w i request held locks next} (htask : w.tasks i = some ⟨request, held, .lock locks next⟩)
      (hfree : ∀ j task, j ≠ i → w.tasks j = some task → ∀ l ∈ locks, l ∉ task.held) :
      Step w (.proceed i)
        { w with tasks := update w.tasks i (some ⟨request, locks ++ held, next w.db⟩) }
  | commit {w i request held write answer db}
      (htask : w.tasks i = some ⟨request, held, .pure write⟩)
      (hwrite : write w.db = .ok (answer, db)) :
      Step w (.commit i request answer) { db, tasks := update w.tasks i none }
  | rollback {w i} : Step w (.rollback i) { w with tasks := update w.tasks i none }
  | other {w label db} (hother : S.Other w.db label db)
      (hspares : ∀ i task, w.tasks i = some task → ∀ l ∈ task.held, S.Spares l w.db db) :
      Step w (.other label) { w with db }

/-- The transition system of a service. -/
def system : LTS (World σ Λ ε α τ) (Happening α τ ι) where
  Init w := S.Init w.db ∧ ∀ i, w.tasks i = none
  Step := S.Step

/-- What a transaction relies on: the invariant `I`, what nobody takes back (`Grows`), and what it
has locked. -/
structure Rely (I : σ → Prop) (Grows : σ → σ → Prop) (held : List Λ) (s t : σ) : Prop where
  inv : I t
  grows : Grows s t
  spares : ∀ l ∈ held, S.Spares l s t

/-- The writes of a transaction do what the specification of its commit says. -/
def Writes (Post : List Λ → σ → α → σ → Prop) (held : List Λ) (s : σ)
    (write : σ → Except ε (α × σ)) : Prop :=
  ∀ a t, write s = .ok (a, t) → Post held s a t

/-- What nobody takes back, and what a lock covers, are preorders. -/
structure Lawful (Grows : σ → σ → Prop) : Prop where
  grows_refl : ∀ s, Grows s s
  grows_trans : ∀ {a b c}, Grows a b → Grows b c → Grows a c
  refl : ∀ l s, S.Spares l s s
  trans : ∀ {l a b c}, S.Spares l a b → S.Spares l b c → S.Spares l a c

/-- The proof obligations of a service: the invariant `I`, and the specification `Post` of a
commit, by the request and the locks held. -/
structure Keeps (I : σ → Prop) (Grows : σ → σ → Prop) (Post : τ → List Λ → σ → α → σ → Prop) :
    Prop extends S.Lawful Grows where
  init : ∀ s, S.Init s → I s
  sound : ∀ request s, I s →
    (S.program request).Sound (S.Rely I Grows) (Writes (Post request)) [] s
  commit : ∀ {request held s a t}, Post request held s a t → I s →
    I t ∧ Grows s t ∧ ∀ l, l ∉ held → S.Spares l s t
  other : ∀ {s label t}, S.Other s label t → I s → I t ∧ Grows s t

/-- The invariant of the worlds: no two transactions hold one lock, and each is sound. -/
structure Sound (I : σ → Prop) (Grows : σ → σ → Prop) (Post : τ → List Λ → σ → α → σ → Prop)
    (w : World σ Λ ε α τ) : Prop where
  db : I w.db
  apart : ∀ i j task task', i ≠ j → w.tasks i = some task → w.tasks j = some task' →
    ∀ l ∈ task.held, l ∉ task'.held
  tasks : ∀ i task, w.tasks i = some task →
    task.rest.Sound (S.Rely I Grows) (Writes (Post task.request)) task.held w.db

variable {S} {I : σ → Prop} {Grows : σ → σ → Prop} {Post : τ → List Λ → σ → α → σ → Prop}
variable {w w' : World σ Λ ε α τ} {e : Happening α τ ι}

theorem Lawful.rely_refl (h : S.Lawful Grows) {s : σ} (hs : I s) (held : List Λ) :
    S.Rely I Grows held s s :=
  ⟨hs, h.grows_refl s, fun l _ => h.refl l s⟩

theorem Lawful.stable (h : S.Lawful Grows) : Program.Stable (S.Rely I Grows) where
  refl hab held' := h.rely_refl hab.inv held'
  trans hab hbc := ⟨hbc.inv, h.grows_trans hab.grows hbc.grows, fun l hl =>
    h.trans (hab.spares l hl) (hbc.spares l hl)⟩

/-- A transaction that goes on with the locks it has, and some nobody has, is apart from the
others, and sound if what is left is. -/
theorem Sound.go_on {i : ℕ} {task task' : Task σ Λ ε α τ} (h : S.Sound I Grows Post w)
    (htask : w.tasks i = some task)
    (hheld : ∀ l ∈ task'.held, l ∈ task.held ∨
      ∀ j other, j ≠ i → w.tasks j = some other → l ∉ other.held)
    (hsound : task'.rest.Sound (S.Rely I Grows) (Writes (Post task'.request)) task'.held w.db) :
    S.Sound I Grows Post { w with tasks := Function.update w.tasks i (some task') } := by
  have hother : ∀ j other, j ≠ i → w.tasks j = some other → ∀ l ∈ task'.held, l ∉ other.held := by
    intro j other hj hget l hl
    rcases hheld l hl with hmem | hfree
    · exact h.apart i j task other hj.symm htask hget l hmem
    · exact hfree j other hj hget
  refine ⟨h.db, fun j k a b hne hj hk l hl => ?_, fun j a hj => ?_⟩
  · dsimp only at hj hk
    rw [Function.update_apply] at hj hk
    split at hj
    · next hji =>
      obtain rfl := Option.some.inj hj
      rw [if_neg (hji ▸ hne.symm)] at hk
      exact hother k b (hji ▸ hne.symm) hk l hl
    · next hji =>
      split at hk
      · obtain rfl := Option.some.inj hk
        exact fun hl' => hother j a hji hj l hl' hl
      · exact h.apart j k a b hne hj hk l hl
  · dsimp only at hj
    rw [Function.update_apply] at hj
    split at hj
    · obtain rfl := Option.some.inj hj
      exact hsound
    · exact h.tasks j a hj

/-- A transaction that ends leaves the others as they are, if what it did spares their locks. -/
theorem Sound.finish {i : ℕ} {db : σ} (hkeeps : S.Keeps I Grows Post) (h : S.Sound I Grows Post w)
    (hdb : I db) (hgrows : Grows w.db db) (hspares : ∀ j task, j ≠ i → w.tasks j = some task →
      ∀ l ∈ task.held, S.Spares l w.db db) :
    S.Sound I Grows Post { db, tasks := Function.update w.tasks i none } := by
  refine ⟨hdb, fun j k a b hne hj hk => ?_, fun j a hj => ?_⟩
  · dsimp only at hj hk
    rw [Function.update_apply] at hj hk
    split at hj
    · cases hj
    · split at hk
      · cases hk
      · exact h.apart j k a b hne hj hk
  · dsimp only at hj
    rw [Function.update_apply] at hj
    split at hj
    · cases hj
    · next hji => exact (h.tasks j a hj).stable hkeeps.stable ⟨hdb, hgrows, hspares j a hji hj⟩

/-- A transaction that starts holds no lock. -/
theorem Sound.start {i : ℕ} {request : τ} (h : S.Sound I Grows Post w)
    (hsound : (S.program request).Sound (S.Rely I Grows) (Writes (Post request)) [] w.db) :
    S.Sound I Grows Post { w with
      tasks := Function.update w.tasks i (some { request, rest := S.program request }) } := by
  refine ⟨h.db, fun j k a b hne hj hk l hl => ?_, fun j a hj => ?_⟩
  · dsimp only at hj hk
    rw [Function.update_apply] at hj hk
    split at hj
    · obtain rfl := Option.some.inj hj
      cases hl
    · split at hk
      · obtain rfl := Option.some.inj hk
        exact List.not_mem_nil
      · exact h.apart j k a b hne hj hk l hl
  · dsimp only at hj
    rw [Function.update_apply] at hj
    split at hj
    · obtain rfl := Option.some.inj hj
      exact hsound
    · exact h.tasks j a hj

/-- **What a step does.** It changes nothing committed, commits a request as specified, or is the
step of anybody else. -/
theorem Sound.step_cases (hkeeps : S.Keeps I Grows Post) (h : S.Sound I Grows Post w)
    (hstep : S.Step w e w') :
    (w'.db = w.db ∧ ∀ i request answer, e ≠ .commit i request answer) ∨
      (∃ i request answer held, e = .commit i request answer ∧
        Post request held w.db answer w'.db) ∨
      ∃ label, e = .other label ∧ S.Other w.db label w'.db := by
  cases hstep with
  | start | read | lock | rollback => exact .inl ⟨rfl, nofun⟩
  | @commit i request held write answer db htask hwrite =>
    have hpost := h.tasks i _ htask w.db (hkeeps.rely_refl h.db held) answer db hwrite
    exact .inr (.inl ⟨i, request, answer, held, rfl, hpost⟩)
  | @other label db hother hspares => exact .inr (.inr ⟨label, rfl, hother⟩)

/-- Every step keeps the world sound. -/
theorem Sound.step (hkeeps : S.Keeps I Grows Post) (h : S.Sound I Grows Post w)
    (hstep : S.Step w e w') :
    S.Sound I Grows Post w' := by
  cases hstep with
  | @start i request hfree => exact h.start (hkeeps.sound request _ h.db)
  | @read i request held next htask =>
    have hnext := h.tasks i _ htask w.db (hkeeps.rely_refl h.db held)
    exact h.go_on htask (fun l hl => .inl hl) hnext
  | @lock i request held locks next htask hfree =>
    have hnext := h.tasks i _ htask w.db (hkeeps.rely_refl h.db held)
    refine h.go_on htask (fun l hl => ?_) hnext
    rcases List.mem_append.1 hl with hnew | hold
    · exact .inr fun j other hj hget => hfree j other hj hget l hnew
    · exact .inl hold
  | @commit i request held write answer db htask hwrite =>
    have hpost := h.tasks i _ htask w.db (hkeeps.rely_refl h.db held) answer db hwrite
    obtain ⟨hdb, hgrows, hspares⟩ := hkeeps.commit hpost h.db
    refine h.finish hkeeps hdb hgrows fun j task hj hget l hl => hspares l fun hmem => ?_
    exact h.apart i j _ task hj.symm htask hget l hmem hl
  | @rollback i =>
    exact h.finish hkeeps h.db (hkeeps.grows_refl _) fun j task hj hget l hl => hkeeps.refl l _
  | @other label db hother hspares =>
    obtain ⟨hdb, hgrows⟩ := hkeeps.other hother h.db
    refine ⟨hdb, h.apart, fun j task hget => ?_⟩
    exact (h.tasks j task hget).stable hkeeps.stable ⟨hdb, hgrows, hspares j task hget⟩

/-- **Rule of concurrent transactions.** -/
theorem reachable_sound (hkeeps : S.Keeps I Grows Post) (h : S.system.Reachable w) :
    S.Sound I Grows Post w := by
  refine h.invariant (fun w hw => ⟨hkeeps.init _ hw.1, ?_, ?_⟩) fun hstep hw =>
    hw.step hkeeps hstep
  · intro i j task task' hne hget
    rw [hw.2 i] at hget
    cases hget
  · intro i task hget
    rw [hw.2 i] at hget
    cases hget

/-- A request that runs alone gets to its commit, from a world with no transaction on its way. -/
theorem run_to_commit {P : World σ Λ ε α τ → Happening α τ ι → Prop} {request : τ} {db db' : σ}
    {answer : α} {write : σ → Except ε (α × σ)}
    (hP : ∀ w e, w.db = db → e ∈ [.start 0 request, .proceed 0, .commit 0 request answer] → P w e)
    (h : (S.program request).alone db = .ok write) (hwrite : write db = .ok (answer, db')) :
    ∃ es w, (S.system.restrict P).Run { db } es w ∧
      (S.system.restrict P).Step w (.commit 0 request answer) { db := db' } := by
  have key : ∀ (p : Transaction σ Λ ε α) (held : List Λ) (w : World σ Λ ε α τ), w.db = db →
      w.tasks = Function.update (fun _ => none) 0 (some ⟨request, held, p⟩) →
      p.alone db = .ok write → ∃ es w', (S.system.restrict P).Run w es w' ∧
        (S.system.restrict P).Step w' (.commit 0 request answer) { db := db' } := by
    intro p
    induction p with
    | read next ih =>
      intro held w hdb htasks halone
      have hget : w.tasks 0 = some ⟨request, held, .read next⟩ := by
        rw [htasks, Function.update_self]
      obtain ⟨es, w', hrun, hcommit⟩ := ih w.db held
        { w with tasks := Function.update w.tasks 0 (some ⟨request, held, next w.db⟩) } hdb
        (by rw [htasks, Function.update_idem]) (by rw [hdb]; exact halone)
      exact ⟨_, w', .cons ⟨.read hget, hP _ _ hdb (by simp)⟩ hrun, hcommit⟩
    | lock locks next ih =>
      intro held w hdb htasks halone
      have hget : w.tasks 0 = some ⟨request, held, .lock locks next⟩ := by
        rw [htasks, Function.update_self]
      have hfree : ∀ j task, j ≠ 0 → w.tasks j = some task → ∀ l ∈ locks, l ∉ task.held := by
        intro j task hj hother
        rw [htasks, Function.update_of_ne hj] at hother
        cases hother
      obtain ⟨es, w', hrun, hcommit⟩ := ih w.db (locks ++ held)
        { w with tasks := Function.update w.tasks 0 (some ⟨request, locks ++ held, next w.db⟩) } hdb
        (by rw [htasks, Function.update_idem]) (by rw [hdb]; exact halone)
      exact ⟨_, w', .cons ⟨.lock hget hfree, hP _ _ hdb (by simp)⟩ hrun, hcommit⟩
    | pure write' =>
      intro held w hdb htasks halone
      have hget : w.tasks 0 = some ⟨request, held, .pure write'⟩ := by
        rw [htasks, Function.update_self]
      have hnone : Function.update w.tasks 0 none = fun _ => none := by
        rw [htasks, Function.update_idem, Function.update_eq_self_iff]
      obtain rfl := Except.ok.inj halone
      have hcommit := Step.commit (S := S) hget (by rw [hdb]; exact hwrite)
      rw [hnone] at hcommit
      exact ⟨[], w, .nil w, hcommit, hP _ _ hdb (by simp)⟩
    | fail e =>
      intro held w hdb htasks halone
      cases halone
  obtain ⟨es, w', hrun, hcommit⟩ := key (S.program request) []
    { db, tasks := Function.update (fun _ => none) 0 (some ⟨request, [], S.program request⟩) }
    rfl rfl h
  exact ⟨_, w', .cons ⟨.start rfl, hP _ _ rfl (by simp)⟩ hrun, hcommit⟩

/-- **A request that runs alone** is a run, from a world with no transaction on its way. -/
theorem run_alone {P : World σ Λ ε α τ → Happening α τ ι → Prop} {request : τ} {db db' : σ}
    {answer : α} {write : σ → Except ε (α × σ)}
    (hP : ∀ w e, w.db = db → e ∈ [.start 0 request, .proceed 0, .commit 0 request answer] → P w e)
    (h : (S.program request).alone db = .ok write) (hwrite : write db = .ok (answer, db')) :
    ∃ es, (S.system.restrict P).Run { db } es { db := db' } := by
  obtain ⟨es, w, hrun, hcommit⟩ := run_to_commit hP h hwrite
  exact ⟨_, hrun.append (.single hcommit)⟩

end Service

end OpsPilot
