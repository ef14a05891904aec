import Mathlib.Data.List.Perm.Basic
import Mathlib.Data.String.Basic
import WalletVault.Proofs.Text.Utf8
import WalletVault.Wallet.KeyRing

/-! UTF-8 keeps order: a text before another has its bytes before those of the other. Maps from texts list their keys
in that order. -/
namespace WalletVault.Utf8

def Below (left right : Bytes) : Prop := ∀ after later, compare (left ++ after) (right ++ later) = .lt

theorem compareSame (front left right : Bytes) : compare (front ++ left) (front ++ right) = compare left right := by
  induction front with
  | nil => rfl
  | cons b rest ih =>
    rw [List.cons_append, List.cons_append, List.compare_cons_cons, Std.ReflOrd.compare_self, ih]
    rfl

theorem belowCons {n m : Nat} {left right : Bytes} (ordered : n ≤ m) (small : m < 256)
    (rest : n = m → Below left right) : Below (UInt8.ofNat n :: left) (UInt8.ofNat m :: right) := by
  intro after later
  rw [List.cons_append, List.cons_append, List.compare_cons_cons]
  rcases Nat.lt_or_eq_of_le ordered with less | same
  · have first : compare (UInt8.ofNat n) (UInt8.ofNat m) = .lt := by
      rw [Std.compare_eq_lt, UInt8.lt_iff_toNat_lt, UInt8.toNat_ofNat', UInt8.toNat_ofNat']
      omega
    rw [first]
    rfl
  · rw [same, Std.ReflOrd.compare_self, rest same]
    rfl

theorem belowFirst {n m : Nat} (less : n < m) (small : m < 256) (left right : Bytes) :
    Below (UInt8.ofNat n :: left) (UInt8.ofNat m :: right) :=
  belowCons (Nat.le_of_lt less) small fun same => absurd same (Nat.ne_of_lt less)

/- A longer sequence has the larger first byte. In two sequences of one length the first bytes that differ
decide, as the first digits that differ do in two numbers. -/
theorem characterBelow {c d : Char} (less : c < d) : Below (String.utf8EncodeChar c) (String.utf8EncodeChar d) := by
  have valid : d.val.toNat < 55296 ∨ 57343 < d.val.toNat ∧ d.val.toNat < 1114112 := d.valid
  have less : c.val.toNat < d.val.toNat := UInt32.lt_iff_toNat_lt.mp less
  unfold String.utf8EncodeChar
  generalize c.val.toNat = n at less ⊢
  generalize d.val.toNat = m at less valid ⊢
  dsimp only
  by_cases one : n ≤ 127
  · rw [if_pos one]
    split_ifs <;> exact belowFirst (by omega) (by omega) _ _
  · rw [if_neg one, if_neg (show ¬ m ≤ 127 by omega)]
    by_cases two : n ≤ 2047
    · rw [if_pos two]
      split_ifs
      · exact belowCons (by omega) (by omega) fun _ => belowFirst (by omega) (by omega) _ _
      · exact belowFirst (by omega) (by omega) _ _
      · exact belowFirst (by omega) (by omega) _ _
    · rw [if_neg two, if_neg (show ¬ m ≤ 2047 by omega)]
      by_cases three : n ≤ 65535
      · rw [if_pos three]
        split_ifs
        · exact belowCons (by omega) (by omega) fun _ => belowCons (by omega) (by omega) fun _ =>
            belowFirst (by omega) (by omega) _ _
        · exact belowFirst (by omega) (by omega) _ _
      · rw [if_neg three, if_neg (show ¬ m ≤ 65535 by omega)]
        exact belowCons (by omega) (by omega) fun _ => belowCons (by omega) (by omega) fun _ =>
          belowCons (by omega) (by omega) fun _ => belowFirst (by omega) (by omega) _ _

theorem listBelow {left right : List Char} (less : left < right) :
    compare (left.flatMap String.utf8EncodeChar) (right.flatMap String.utf8EncodeChar) = .lt := by
  induction less with
  | @nil d rest =>
    rw [List.flatMap_nil, List.flatMap_cons]
    cases bytes : String.utf8EncodeChar d with
    | nil => exact absurd bytes (String.utf8EncodeChar_ne_nil)
    | cons b more => rfl
  | rel less =>
    rw [List.flatMap_cons, List.flatMap_cons]
    exact characterBelow less _ _
  | cons _ ih =>
    rw [List.flatMap_cons, List.flatMap_cons, compareSame]
    exact ih

theorem encodeOrdered {left right : String} (less : compare left right = .lt) :
    compare (encode left) (encode right) = .lt := by
  have bytes (text : String) : encode text = text.toList.flatMap String.utf8EncodeChar := by
    rw [← encodeOfList, String.ofList_toList]
  rw [bytes, bytes]
  exact listBelow (String.lt_iff.mp (compare_lt_iff_lt.mp less))

end WalletVault.Utf8

namespace WalletVault.TextMap

variable {α β : Type}

theorem valuesOfList (map : TextMap α) : map.values = map.toList.map Prod.snd := by
  obtain ⟨⟨tree⟩⟩ := map
  induction tree using Quotient.inductionOn with
  | h tree =>
    change tree.inner.values = (Std.DTreeMap.Internal.Impl.Const.toList tree.inner).map Prod.snd
    rw [Std.DTreeMap.Internal.Impl.values_eq_map_snd,
      Std.DTreeMap.Internal.Impl.Const.toList_eq_toListModel_map]
    simp [Function.comp_def]

theorem memberValues {map : TextMap α} {value : α} :
    value ∈ map.values ↔ ∃ key : String, map[key]? = some value := by
  rw [valuesOfList, List.mem_map]
  constructor
  · rintro ⟨⟨key, found⟩, member, rfl⟩
    exact ⟨key, Std.ExtTreeMap.mem_toList_iff_getElem?_eq_some.mp member⟩
  · rintro ⟨key, found⟩
    exact ⟨(key, value), Std.ExtTreeMap.mem_toList_iff_getElem?_eq_some.mpr found, rfl⟩

theorem lookupInsert (map : TextMap α) (key other : String) (value : α) :
    (map.insert key value)[other]? = if key = other then some value else map[other]? := by
  simp [Std.ExtTreeMap.getElem?_insert]

theorem lookupErase (map : TextMap α) (key other : String) :
    (map.erase key)[other]? = if key = other then none else map[other]? := by
  simp [Std.ExtTreeMap.getElem?_erase]

theorem keysSame {left : TextMap α} {right : TextMap β}
    (same : ∀ key : String, key ∈ left ↔ key ∈ right) : left.keys = right.keys := by
  have members : left.keys.Perm right.keys := by
    rw [List.perm_ext_iff_of_nodup Std.ExtTreeMap.nodup_keys Std.ExtTreeMap.nodup_keys]
    intro key
    rw [Std.ExtTreeMap.mem_keys, Std.ExtTreeMap.mem_keys, same]
  refine members.eq_of_pairwise ?_ Std.ExtTreeMap.ordered_keys Std.ExtTreeMap.ordered_keys
  intro first second _ _ below above
  rw [Std.OrientedCmp.gt_iff_lt.mpr above] at below
  cases below

end WalletVault.TextMap
