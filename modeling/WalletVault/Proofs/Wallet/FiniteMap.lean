import Mathlib.Data.List.Dedup
import WalletVault.Proofs.Wallet.Listing

/-! A ring that is filled pair by pair is a finite map from public keys to pairs, with one listing. It holds for each
key the pair that was filed last, under whatever spelling the key is asked for; the listing is settled by the pairs
alone, in whatever order they are stored or taken out. -/
namespace WalletVault.KeyRing
variable {ring : KeyRing} {pairs others : List KeyPair} {key other : String}

inductive Precedes (a b : KeyPair) : Prop where
  | number {i j : UInt32} (left : a.index = some i) (right : b.index = some j) (less : i < j)
  | numbered {i : UInt32} (left : a.index = some i) (right : b.index = none)
  | digits (same : a.index = b.index) (less : a.publicKey.hex < b.publicKey.hex)

theorem listedPrecedes {a b : KeyPair} (listed : listedBefore a b = true)
    (differs : a.publicKey.hex ≠ b.publicKey.hex) : Precedes a b := by
  have strictly (below : a.publicKey.hex ≤ b.publicKey.hex) : a.publicKey.hex < b.publicKey.hex :=
    Std.lt_of_le_of_ne below differs
  unfold listedBefore at listed
  split at listed
  · rename_i i j left right
    rw [Bool.or_eq_true, Bool.and_eq_true, decide_eq_true_eq, beq_iff_eq, decide_eq_true_eq] at listed
    rcases listed with less | ⟨rfl, below⟩
    · exact .number left right less
    · exact .digits (left.trans right.symm) (strictly below)
  · rename_i i left right
    exact .numbered left right
  · cases listed
  · rename_i left right
    exact .digits (left.trans right.symm) (strictly (of_decide_eq_true listed))

theorem listStrict (filed : ring.Filed) : ring.list.Pairwise Precedes :=
  ((listSorted ring).and (List.pairwise_map.mp (listDistinct filed))).imp fun both => listedPrecedes both.1 both.2

theorem listAnyOrder (filed : ring.Filed) {order : List KeyPair} (taken : order.Perm ring.keys.values) :
    order.mergeSort listedBefore = ring.list := by
  have same : (order.mergeSort listedBefore).Perm ring.list :=
    (List.mergeSort_perm order _).trans (taken.trans (List.mergeSort_perm ring.keys.values _).symm)
  refine (listUnique filed (fun pair => same.mem_iff.symm) ?_ ?_).symm
  · exact (same.map _).nodup_iff.mpr (listDistinct filed)
  · exact List.pairwise_mergeSort listedTrans listedTotal order

theorem countList (filed : ring.Filed) (pair : KeyPair) :
    ring.list.count pair = if ring.find? pair.publicKey.hex = some pair then 1 else 0 := by
  have stored : pair ∈ ring.list ↔ ring.find? pair.publicKey.hex = some pair := by
    rw [memberFiled filed, findFiled filed, PublicKey.hex, Hex.encodeLower]
  split
  · rename_i found
    exact List.count_eq_one_of_mem (listDistinct filed).of_map (stored.mpr found)
  · rename_i absent
    exact List.count_eq_zero_of_not_mem fun member => absent (stored.mp member)

theorem findOfList (pairs : List KeyPair) (key : String) :
    (ofList pairs).find? key = pairs.reverse.find? (·.publicKey.hex = key.toLower) := by
  rw [findFiled (ofListFiled pairs), keysOfList]

theorem sizeOfList (pairs : List KeyPair) : (ofList pairs).size = (pairs.map KeyPair.publicKey).dedup.length := by
  have places : (ofList pairs).keys.keys.Perm ((pairs.map KeyPair.publicKey).dedup.map PublicKey.hex) := by
    have distinct : ((pairs.map KeyPair.publicKey).dedup.map PublicKey.hex).Nodup :=
      (List.nodup_dedup _).map fun _ _ => PublicKey.hexInjective
    rw [List.perm_ext_iff_of_nodup Std.ExtTreeMap.nodup_keys distinct]
    intro key
    rw [Std.ExtTreeMap.mem_keys, Std.ExtTreeMap.mem_iff_isSome_getElem?, keysOfList, List.find?_isSome]
    simp only [List.mem_reverse, decide_eq_true_eq, List.mem_map, List.mem_dedup, exists_exists_and_eq_and]
  rw [size, ← Std.ExtTreeMap.length_keys, places.length_eq, List.length_map]

theorem lastOfDistinct (same : pairs.Perm others) (distinct : (pairs.map KeyPair.publicKey).Nodup) (key : String) :
    pairs.reverse.find? (·.publicKey.hex = key) = others.reverse.find? (·.publicKey.hex = key) := by
  have one {list : List KeyPair} (once : (list.map KeyPair.publicKey).Nodup) (pair : KeyPair) :
      list.reverse.find? (·.publicKey.hex = key) = some pair ↔ pair ∈ list ∧ pair.publicKey.hex = key := by
    constructor
    · intro found
      exact ⟨List.mem_reverse.mp (List.mem_of_find?_eq_some found), by simpa using List.find?_some found⟩
    · rintro ⟨member, named⟩
      cases found : list.reverse.find? (·.publicKey.hex = key) with
      | none => simpa [named] using List.find?_eq_none.mp found pair (List.mem_reverse.mpr member)
      | some kept =>
        have inside := List.mem_reverse.mp (List.mem_of_find?_eq_some found)
        have alike : kept.publicKey.hex = key := by simpa using List.find?_some found
        rw [List.inj_on_of_nodup_map once inside member (PublicKey.hexInjective (alike.trans named.symm))]
  refine Option.ext fun pair => ?_
  rw [one distinct, one ((same.map _).nodup_iff.mp distinct), same.mem_iff]

theorem nextIndexAnyOrder (same : pairs.Perm others) : (ofList pairs).nextIndex = (ofList others).nextIndex := by
  have least (bound : UInt32) : (ofList pairs).nextIndex ≤ bound ↔ (ofList others).nextIndex ≤ bound := by
    simp only [ofList, nextIndexBelow, same.mem_iff]
  exact UInt32.le_antisymm ((least _).mpr UInt32.le_rfl) ((least _).mp UInt32.le_rfl)

theorem ofListAnyOrder (same : pairs.Perm others) (distinct : (pairs.map KeyPair.publicKey).Nodup) :
    ofList pairs = ofList others := by
  have keys : (ofList pairs).keys = (ofList others).keys := by
    apply Std.ExtTreeMap.ext_getElem?
    intro key
    rw [keysOfList, keysOfList, lastOfDistinct same distinct]
  calc ofList pairs
    _ = ⟨(ofList pairs).keys, (ofList pairs).nextIndex⟩ := rfl
    _ = ⟨(ofList others).keys, (ofList others).nextIndex⟩ := by rw [keys, nextIndexAnyOrder same]

/-! What a key is asked for by. -/

theorem requireSpelling (filed : ring.Filed) (same : key.toLower = other.toLower) :
    ring.require key = ring.require other := by
  rw [require, require, findFiled filed, findFiled filed, same]

structure SameKey (ring : KeyRing) (key other : String) : Prop where
  describe : ring.describe key = ring.describe other
  taint : ring.taint key = ring.taint other
  untaint : ring.untaint key = ring.untaint other
  annotate : ∀ notes, ring.annotate key notes = ring.annotate other notes
  signAny : ∀ data, ring.signAny key data = ring.signAny other data
  signTx : ∀ data, ring.signTx key data = ring.signTx other data
  verifyAny : ∀ data signature, ring.verifyAny key data signature = ring.verifyAny other data signature

theorem spellingSameKey (filed : ring.Filed) (same : key.toLower = other.toLower) : ring.SameKey key other := by
  have required := requireSpelling filed same
  have changed (f : KeyPair → Except WalletFault KeyPair) : ring.change key f = ring.change other f := by
    rw [change, required]
    rfl
  refine ⟨?_, changed _, changed _, fun _ => changed _, fun _ => ?_, fun _ => ?_, fun _ _ => ?_⟩
  · rw [KeyRing.describe, required, KeyRing.describe]
  · rw [KeyRing.signAny, required, KeyRing.signAny]
  · rw [KeyRing.signTx, required, KeyRing.signTx]
  · rw [KeyRing.verifyAny, required, KeyRing.verifyAny]

/-- A ring is a finite map of the pairs filed in it. A text finds the pair that was filed last under the public key
that the text writes in either case, and the size is the number of public keys. The listing holds every stored pair
once, in strictly ascending order, in whatever order the pairs are taken out of the map. No call tells two spellings
of a key apart. Where the public keys are distinct, the order in which the pairs were filed leaves no trace in the
ring. -/
theorem filedAsMap (pairs : List KeyPair) :
    (∀ key, (ofList pairs).find? key = pairs.reverse.find? (·.publicKey.hex = key.toLower)) ∧
    (ofList pairs).size = (pairs.map KeyPair.publicKey).dedup.length ∧
    (∀ pair, (ofList pairs).list.count pair =
      if (ofList pairs).find? pair.publicKey.hex = some pair then 1 else 0) ∧
    (ofList pairs).list.Pairwise Precedes ∧
    (∀ order : List KeyPair, order.Perm (ofList pairs).keys.values →
      order.mergeSort listedBefore = (ofList pairs).list) ∧
    (ofList pairs).views = (ofList pairs).list.map KeyPair.view ∧
    (∀ key other : String, key.toLower = other.toLower → (ofList pairs).SameKey key other) ∧
    ∀ others : List KeyPair, pairs.Perm others → (pairs.map KeyPair.publicKey).Nodup →
      ofList others = ofList pairs := by
  have filed := ofListFiled pairs
  refine ⟨findOfList pairs, sizeOfList pairs, countList filed, listStrict filed, ?_, rfl, ?_, ?_⟩
  · exact fun _ => listAnyOrder filed
  · exact fun _ _ => spellingSameKey filed
  · exact fun _ same distinct => (ofListAnyOrder same distinct).symm

def sampleUnnumbered : KeyPair := ⟨none, ⟨[0xAB]⟩, ⟨[1]⟩, true, [], .ed25519⟩

def sampleSecond : KeyPair := ⟨some 2, ⟨[0xCD]⟩, ⟨[2]⟩, false, [⟨"use", "rent"⟩], .ed25519⟩

theorem sampleFiledEitherWay :
    [sampleUnnumbered, sampleSecond].Perm [sampleSecond, sampleUnnumbered] ∧
    ([sampleUnnumbered, sampleSecond].map KeyPair.publicKey).Nodup ∧
    ofList [sampleSecond, sampleUnnumbered] = ofList [sampleUnnumbered, sampleSecond] ∧
    "aB".toLower = "Ab".toLower ∧ (ofList [sampleUnnumbered, sampleSecond]).SameKey "aB" "Ab" ∧
    (ofList [sampleUnnumbered, sampleSecond]).find? "aB" = some sampleUnnumbered ∧
    ∃ order : List KeyPair, order.Perm (ofList [sampleUnnumbered, sampleSecond]).keys.values ∧
      order.mergeSort listedBefore = (ofList [sampleUnnumbered, sampleSecond]).list := by
  have same : [sampleUnnumbered, sampleSecond].Perm [sampleSecond, sampleUnnumbered] := .swap _ _ _
  have distinct : ([sampleUnnumbered, sampleSecond].map KeyPair.publicKey).Nodup := by decide
  have written : "aB".toLower = Hex.encode [0xAB] := Hex.decodeMeans.mp (by decide +kernel)
  have again : "Ab".toLower = Hex.encode [0xAB] := Hex.decodeMeans.mp (by decide +kernel)
  have spelling : "aB".toLower = "Ab".toLower := written.trans again.symm
  obtain ⟨finds, _, _, _, sorts, _, names, orders⟩ := filedAsMap [sampleUnnumbered, sampleSecond]
  have last : [sampleUnnumbered, sampleSecond].reverse.find? (·.publicKey.hex = "aB".toLower) =
      some sampleUnnumbered := by
    rw [written]
    decide +kernel
  have reversed := List.reverse_perm (ofList [sampleUnnumbered, sampleSecond]).keys.values
  exact ⟨same, distinct, orders _ same distinct, spelling, names _ _ spelling, (finds "aB").trans last, _, reversed,
    sorts _ reversed⟩

end WalletVault.KeyRing
