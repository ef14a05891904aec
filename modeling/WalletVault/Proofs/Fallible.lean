import Mathlib.Data.List.Forall2

/-! What it means that a computation with faults succeeds, each of its steps did, and what it means that it is
refused. -/
namespace WalletVault.Fallible
variable {ε δ α β γ : Type}

theorem mapMap (first : Except ε α) (f : α → β) (g : β → γ) :
    (first.map f).map g = first.map fun value => g (f value) := by
  cases first <;> rfl

theorem bindOk {first : Except ε α} {next : α → Except ε β} {result : β} :
    first >>= next = .ok result ↔ ∃ value, first = .ok value ∧ next value = .ok result := by
  cases first with
  | error fault => simp [bind, Except.bind]
  | ok value => simp [bind, Except.bind]

theorem mapOk {first : Except ε α} {f : α → β} {result : β} :
    first.map f = .ok result ↔ ∃ value, first = .ok value ∧ f value = result := by
  cases first with
  | error fault => simp [Except.map]
  | ok value => simp [Except.map]

theorem mapErrorOk {first : Except ε α} {f : ε → δ} {result : α} :
    first.mapError f = .ok result ↔ first = .ok result := by
  cases first with
  | error fault => simp [Except.mapError]
  | ok value => simp [Except.mapError]

theorem pureOk {value result : α} : (pure value : Except ε α) = .ok result ↔ value = result := by
  simp [pure, Except.pure]

theorem collectedOk {f : α → Except ε β} {items : List α} {results : List β} :
    items.mapM f = .ok results ↔ List.Forall₂ (fun item result => f item = .ok result) items results := by
  induction items generalizing results with
  | nil => simp [pure, Except.pure, eq_comm]
  | cons item rest ih =>
    rw [List.mapM_cons, List.forall₂_cons_left_iff, bindOk]
    constructor
    · rintro ⟨value, first, remaining⟩
      obtain ⟨values, later, done⟩ := bindOk.mp remaining
      exact ⟨value, values, first, ih.mp later, (pureOk.mp done).symm⟩
    · rintro ⟨value, values, first, later, rfl⟩
      exact ⟨value, first, bindOk.mpr ⟨values, ih.mpr later, rfl⟩⟩

theorem alignedPlace {related : α → β → Prop} {left : List α} {right : List β}
    (aligned : List.Forall₂ related left right) {place : Nat} {value : β} (here : right[place]? = some value) :
    ∃ item, left[place]? = some item ∧ related item value := by
  induction aligned generalizing place with
  | nil => cases here
  | cons first _ ih =>
    cases place with
    | zero =>
      cases here
      exact ⟨_, rfl, first⟩
    | succ place => exact ih here

theorem collectedFrom {f : α → Except ε β} {items : List α} {results : List β}
    (read : items.mapM f = .ok results) : ∀ result ∈ results, ∃ item ∈ items, f item = .ok result := by
  have each := collectedOk.mp read
  clear read
  induction each with
  | nil => nofun
  | cons first _ ih =>
    intro result member
    rcases List.mem_cons.mp member with rfl | member
    · exact ⟨_, List.mem_cons_self, first⟩
    · obtain ⟨item, inside, read⟩ := ih result member
      exact ⟨item, List.mem_cons_of_mem _ inside, read⟩

theorem collectedInto {f : α → Except ε β} {items : List α} {results : List β}
    (read : items.mapM f = .ok results) : ∀ item ∈ items, ∃ result ∈ results, f item = .ok result := by
  have each := collectedOk.mp read
  clear read
  induction each with
  | nil => nofun
  | cons first _ ih =>
    intro item member
    rcases List.mem_cons.mp member with rfl | member
    · exact ⟨_, List.mem_cons_self, first⟩
    · obtain ⟨result, inside, read⟩ := ih item member
      exact ⟨result, List.mem_cons_of_mem _ inside, read⟩

theorem checkedOk {f : α → Except ε Unit} {items : List α} :
    items.forM f = .ok () ↔ ∀ item ∈ items, f item = .ok () := by
  rw [List.forM_eq_forM]
  induction items with
  | nil => simp [pure, Except.pure]
  | cons item rest ih =>
    rw [List.forM_cons, bindOk, List.forall_mem_cons, ih]
    exact ⟨fun ⟨_, both⟩ => both, fun both => ⟨(), both⟩⟩

/-! What it means that it is refused: some step is, and those before it were not. -/

theorem bindFault {first : Except ε α} {next : α → Except ε β} {fault : ε} :
    first >>= next = .error fault ↔ first = .error fault ∨ ∃ value, first = .ok value ∧ next value = .error fault := by
  cases first with
  | error cause => simp [bind, Except.bind]
  | ok value => simp [bind, Except.bind]

theorem mapErrorFault {first : Except ε α} {f : ε → δ} {fault : δ} :
    first.mapError f = .error fault ↔ ∃ cause, first = .error cause ∧ f cause = fault := by
  cases first with
  | error cause => simp [Except.mapError]
  | ok value => simp [Except.mapError]

theorem firstOfCons {item : α} {items : List α} {passes fails : α → Prop} :
    (∃ before last rest, item :: items = before ++ last :: rest ∧ (∀ earlier ∈ before, passes earlier) ∧ fails last) ↔
      fails item ∨ passes item ∧
        ∃ before last rest, items = before ++ last :: rest ∧ (∀ earlier ∈ before, passes earlier) ∧ fails last := by
  constructor
  · rintro ⟨before, last, rest, split, all, failed⟩
    cases before with
    | nil =>
      cases split
      exact Or.inl failed
    | cons first before =>
      cases split
      obtain ⟨passed, all⟩ := List.forall_mem_cons.mp all
      exact Or.inr ⟨passed, before, last, rest, rfl, all, failed⟩
  · rintro (failed | ⟨passed, before, last, rest, rfl, all, failed⟩)
    · exact ⟨[], item, items, rfl, nofun, failed⟩
    · exact ⟨item :: before, last, rest, rfl, List.forall_mem_cons.mpr ⟨passed, all⟩, failed⟩

theorem collectedFault {f : α → Except ε β} {items : List α} {fault : ε} :
    items.mapM f = .error fault ↔ ∃ before item rest, items = before ++ item :: rest ∧
      (∀ earlier ∈ before, ∃ result, f earlier = .ok result) ∧ f item = .error fault := by
  induction items with
  | nil => simp [pure, Except.pure]
  | cons item items ih =>
    rw [firstOfCons, ← ih, List.mapM_cons, bindFault]
    refine or_congr_right ⟨?_, ?_⟩
    · rintro ⟨value, read, later⟩
      rcases bindFault.mp later with refused | ⟨_, _, done⟩
      · exact ⟨⟨value, read⟩, refused⟩
      · cases done
    · rintro ⟨⟨value, read⟩, refused⟩
      exact ⟨value, read, bindFault.mpr (Or.inl refused)⟩

theorem checkedFault {f : α → Except ε Unit} {items : List α} {fault : ε} :
    items.forM f = .error fault ↔ ∃ before item rest, items = before ++ item :: rest ∧
      (∀ earlier ∈ before, f earlier = .ok ()) ∧ f item = .error fault := by
  rw [List.forM_eq_forM]
  induction items with
  | nil => simp [pure, Except.pure]
  | cons item items ih =>
    rw [firstOfCons, ← ih, List.forM_cons, bindFault]
    exact or_congr_right ⟨fun ⟨_, both⟩ => both, fun both => ⟨(), both⟩⟩

theorem firstPlace {items : List α} {passes fails : α → Prop} :
    (∃ before item rest, items = before ++ item :: rest ∧ (∀ earlier ∈ before, passes earlier) ∧ fails item) ↔
      ∃ place item, items[place]? = some item ∧ (∀ earlier ∈ items.take place, passes earlier) ∧ fails item := by
  constructor
  · rintro ⟨before, item, rest, rfl, all, failed⟩
    exact ⟨before.length, item, by simp, by rwa [List.take_left], failed⟩
  · rintro ⟨place, item, here, all, failed⟩
    obtain ⟨inside, rfl⟩ := List.getElem?_eq_some_iff.mp here
    refine ⟨items.take place, _, items.drop (place + 1), ?_, all, failed⟩
    rw [← List.drop_eq_getElem_cons inside, List.take_append_drop]

theorem collectedAll {f : α → Except ε β} {items : List α} :
    (∃ results, items.mapM f = .ok results) ↔ ∀ item ∈ items, ∃ result, f item = .ok result := by
  induction items with
  | nil => simp [pure, Except.pure]
  | cons item items ih =>
    rw [List.forall_mem_cons, ← ih, List.mapM_cons]
    constructor
    · rintro ⟨_, read⟩
      obtain ⟨value, first, read⟩ := bindOk.mp read
      obtain ⟨values, later, _⟩ := bindOk.mp read
      exact ⟨⟨value, first⟩, values, later⟩
    · rintro ⟨⟨value, first⟩, values, later⟩
      exact ⟨value :: values, bindOk.mpr ⟨value, first, bindOk.mpr ⟨values, later, rfl⟩⟩⟩

end WalletVault.Fallible
