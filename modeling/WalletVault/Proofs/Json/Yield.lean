import WalletVault.Proofs.Json.Record

/-! What a reader yields: a property that a check gives to every value, kept through lists and records. It is about
the values alone, wherever in a document they stand. -/
namespace WalletVault.Json
open Fallible

def Yields {α : Type} (reader : Reader α) (good : α → Prop) : Prop :=
  ∀ text value rest, reader text = .ok (value, rest) → good value

section Values
variable {α β : Type} {reader : Reader α} {good : α → Prop}

theorem checkedYields {check : α → Except String β} {good : β → Prop}
    (checked : ∀ raw value, check raw = .ok value → good value) : Yields (readChecked reader check) good := by
  intro text value rest read
  unfold readChecked at read
  split at read
  · cases read
  · rename_i raw left taken
    split at read
    · rename_i passed
      cases read
      exact checked raw _ passed
    · cases read

theorem elementsYield (yields : Yields reader good) (fuel : Nat) {done : List α}
    (before : ∀ value ∈ done, good value) :
    Yields (readElements reader fuel done) fun values => ∀ value ∈ values, good value := by
  induction fuel generalizing done with
  | zero => exact fun text values rest read => nomatch read
  | succ fuel ih =>
    intro text values rest read
    unfold readElements at read
    split at read
    · cases read
    · cases read
      simpa using before
    · split at read
      · cases read
      · rename_i value left taken
        have extended := List.forall_mem_cons.mpr ⟨yields _ value left taken, before⟩
        exact ih extended _ _ _ read

theorem listYields (yields : Yields reader good) :
    Yields (readList reader) fun values => ∀ value ∈ values, good value := by
  intro text values rest read
  unfold readList at read
  split at read
  · split at read
    · exact elementsYield yields _ (List.forall_mem_nil _) _ _ _ read
    · cases read
  · cases read

theorem documentYields (yields : Yields reader good) {document : Bytes} {value : α}
    (read : readDocument reader document = .ok value) : good value := by
  unfold readDocument at read
  split at read
  · cases read
  · rename_i found rest taken
    split at read
    · cases read
      exact yields _ _ _ taken
    · cases read

end Values

/-! Records. A property of the draft holds of the empty one, and every field that is read keeps it. -/

section Records
variable {δ α : Type} {fields : List (Field δ)} {kept : δ → Prop}

theorem fieldYields {field : Field δ} {good : field.α → Prop} (yields : Yields field.reader good)
    (puts : ∀ draft value, kept draft → good value → kept (field.put draft value)) :
    ∀ draft, kept draft → Yields (field.read draft) kept := by
  intro draft before text next rest read
  obtain ⟨⟨value, _⟩, taken, same⟩ := mapOk.mp read
  cases same
  exact puts draft value before (yields text value _ taken)

theorem membersYield (each : ∀ field ∈ fields, ∀ draft, kept draft → Yields (field.read draft) kept) (fuel : Nat)
    (first : Bool) {draft : δ} (before : kept draft) : Yields (readMembers fields fuel first draft) kept := by
  induction fuel generalizing first draft with
  | zero => exact fun text last rest read => nomatch read
  | succ fuel ih =>
    intro text last rest read
    unfold readMembers at read
    split at read
    · cases read
    · cases read
      exact before
    · split at read
      · rename_i field found
        split at read
        · cases read
        split at read
        · cases read
        split at read
        · cases read
        · rename_i next left taken
          have known := List.mem_of_find?_eq_some found
          exact ih false (each field known draft before _ next left taken) _ _ _ read
      · split at read
        · cases read
        split at read
        · cases read
        · exact ih false before _ _ _ read

theorem fieldsYield (each : ∀ field ∈ fields, ∀ draft, kept draft → Yields (field.read draft) kept)
    (first : Bool) {draft : δ} (before : kept draft) : Yields (readFields fields first draft) kept := by
  induction fields generalizing first draft with
  | nil =>
    intro text last rest read
    cases read
    exact before
  | cons field fields ih =>
    obtain ⟨here, later⟩ := List.forall_mem_cons.mp each
    intro text last rest read
    unfold readFields at read
    split at read
    · cases read
    · cases read
      exact before
    · split at read
      · cases read
      · rename_i next left taken
        exact ih later false (here draft before _ next left taken) _ _ _ read

theorem recordYields {shape : Shape δ α} {good : α → Prop} (start : kept shape.empty)
    (each : ∀ field ∈ shape.fields, ∀ draft, kept draft → Yields (field.read draft) kept)
    (finished : ∀ draft value, kept draft → shape.finish draft = some value → good value) :
    Yields (readRecord shape) good := by
  intro text value rest read
  cases readRecordSource read with
  | object _ taken made => exact finished _ _ (membersYield each _ true start _ _ _ taken) made
  | list _ taken made => exact finished _ _ (fieldsYield each true start _ _ _ taken) made

end Records

end WalletVault.Json
