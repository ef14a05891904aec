import Mathlib.Data.List.Nodup
import WalletVault.Proofs.Form.RoundTrip

/-! The listing of a ring, in order. A pair with a larger number than all others is listed after them, and a pair
that is put in the place of another is listed where the other was. So the keys of a derived wallet are listed as
they were issued, with the numbers from 1 on. -/
namespace WalletVault
open Fallible

theorem KeyPair.taintView {old new : KeyPair} (tainted : old.taint = .ok new) :
    new.view = { old.view with tainted := true } := by
  rw [taintSource tainted]
  rfl

theorem KeyPair.untaintView {old new : KeyPair} (cleared : old.untaint = .ok new) :
    new.view = { old.view with tainted := false } := by
  rw [untaintSource cleared]
  rfl

namespace KeyRing

def place (pair : KeyPair) : Nat :=
  match pair.index with
  | some index => index.toNat
  | none => UInt32.size

theorem placeSame {a b : KeyPair} (index : a.index = b.index) : place a = place b := by
  simp only [place, index]

theorem placeNumbered {pair : KeyPair} {index : UInt32} (number : pair.index = some index) :
    place pair = index.toNat := by
  simp only [place, number]

theorem placeUnnumbered {pair : KeyPair} (number : pair.index = none) : place pair = UInt32.size := by
  simp only [place, number]

theorem listedBeforeOk (a b : KeyPair) : listedBefore a b = true ↔
    place a < place b ∨ place a = place b ∧ a.publicKey.hex ≤ b.publicKey.hex := by
  unfold listedBefore
  cases left : a.index with
  | none =>
    rw [placeUnnumbered left]
    cases right : b.index with
    | none =>
      rw [placeUnnumbered right]
      simp only [decide_eq_true_eq, lt_self_iff_false, true_and, false_or]
    | some j =>
      rw [placeNumbered right]
      have bound := j.toNat_lt_size
      refine ⟨nofun, ?_⟩
      rintro (below | ⟨same, _⟩) <;> omega
  | some i =>
    rw [placeNumbered left]
    cases right : b.index with
    | none =>
      rw [placeUnnumbered right]
      exact ⟨fun _ => Or.inl i.toNat_lt_size, fun _ => rfl⟩
    | some j =>
      rw [placeNumbered right]
      simp only [UInt32.lt_iff_toNat_lt, ← UInt32.toNat_inj, Bool.or_eq_true, Bool.and_eq_true, beq_iff_eq,
        decide_eq_true_eq]

theorem listedTrans (a b c : KeyPair) (first : listedBefore a b = true) (second : listedBefore b c = true) :
    listedBefore a c = true := by
  rw [listedBeforeOk] at first second ⊢
  rcases first with below | ⟨same, hex⟩
  · rcases second with further | ⟨level, _⟩
    · exact Or.inl (below.trans further)
    · exact Or.inl (level ▸ below)
  · rcases second with further | ⟨level, order⟩
    · exact Or.inl (same ▸ further)
    · exact Or.inr ⟨same.trans level, String.le_trans hex order⟩

theorem listedTotal (a b : KeyPair) : (listedBefore a b || listedBefore b a) = true := by
  rw [Bool.or_eq_true, listedBeforeOk, listedBeforeOk]
  rcases lt_trichotomy (place a) (place b) with below | same | above
  · exact Or.inl (Or.inl below)
  · rcases String.le_total a.publicKey.hex b.publicKey.hex with hex | hex
    · exact Or.inl (Or.inr ⟨same, hex⟩)
    · exact Or.inr (Or.inr ⟨same.symm, hex⟩)
  · exact Or.inr (Or.inl above)

theorem listedBoth {a b : KeyPair} (first : listedBefore a b = true) (second : listedBefore b a = true) :
    a.publicKey.hex = b.publicKey.hex := by
  rw [listedBeforeOk] at first second
  rcases first with below | ⟨same, hex⟩
  · omega
  · rcases second with below | ⟨_, order⟩
    · omega
    · exact String.le_antisymm hex order

theorem listSorted (ring : KeyRing) : ring.list.Pairwise (listedBefore · · = true) :=
  List.pairwise_mergeSort listedTrans listedTotal ring.keys.values

theorem memberSame {ring : KeyRing} (filed : ring.Filed) {first second : KeyPair} (left : first ∈ ring.list)
    (right : second ∈ ring.list) (same : first.publicKey.hex = second.publicKey.hex) : first = second := by
  have stored := (memberFiled filed).mp left
  rw [same, (memberFiled filed).mp right] at stored
  exact (Option.some.inj stored).symm

theorem listDistinct {ring : KeyRing} (filed : ring.Filed) : (ring.list.map (·.publicKey.hex)).Nodup := by
  have sorted : (ring.list.map (·.publicKey.hex)).Perm (ring.keys.values.map (·.publicKey.hex)) :=
    (List.mergeSort_perm ring.keys.values listedBefore).map _
  have keys : ring.keys.values.map (·.publicKey.hex) = ring.keys.keys := by
    rw [TextMap.valuesOfList, List.map_map, ← Std.ExtTreeMap.map_fst_toList_eq_keys]
    refine List.map_congr_left fun entry member => ?_
    exact (filed entry.1 entry.2 (Std.ExtTreeMap.mem_toList_iff_getElem?_eq_some.mp member)).symm
  rw [sorted.nodup_iff, keys]
  exact Std.ExtTreeMap.nodup_keys

theorem listUnique {ring : KeyRing} (filed : ring.Filed) {pairs : List KeyPair}
    (members : ∀ pair, pair ∈ ring.list ↔ pair ∈ pairs) (distinct : (pairs.map (·.publicKey.hex)).Nodup)
    (sorted : pairs.Pairwise (listedBefore · · = true)) : ring.list = pairs := by
  have same : ring.list.Perm pairs :=
    (List.perm_ext_iff_of_nodup (listDistinct filed).of_map distinct.of_map).mpr members
  refine same.eq_of_pairwise ?_ (listSorted ring) sorted
  exact fun a b inside other before after =>
    memberSame filed inside ((members b).mpr other) (listedBoth before after)

theorem listIssued {ring : KeyRing} (filed : ring.Filed) {pair : KeyPair}
    (fresh : ∀ old ∈ ring.list, old.publicKey.hex ≠ pair.publicKey.hex)
    (last : ∀ old ∈ ring.list, place old < place pair) : (ring.upsert pair).list = ring.list ++ [pair] := by
  apply listUnique (upsertFiled filed pair)
  · intro other
    rw [memberUpsert filed, List.mem_append, List.mem_singleton, or_comm]
    exact or_congr_left ⟨And.left, fun inside => ⟨inside, fresh other inside⟩⟩
  · rw [List.map_append, List.map_singleton, List.nodup_append]
    refine ⟨listDistinct filed, List.nodup_singleton _, ?_⟩
    intro hex inside other here same
    obtain ⟨old, member, rfl⟩ := List.mem_map.mp inside
    exact fresh old member (same.trans (List.mem_singleton.mp here))
  · rw [List.pairwise_append]
    refine ⟨listSorted ring, List.pairwise_singleton _ _, ?_⟩
    intro old member other here
    rw [List.mem_singleton.mp here, listedBeforeOk]
    exact Or.inl (last old member)

def putIn (new pair : KeyPair) : KeyPair := if pair.publicKey.hex = new.publicKey.hex then new else pair

theorem putReplaces {ring : KeyRing} (filed : ring.Filed) {old new pair : KeyPair} (member : old ∈ ring.list)
    (replaces : new.Replaces old) (inside : pair ∈ ring.list) : (putIn new pair).Replaces pair := by
  unfold putIn
  split
  · rename_i same
    have samePublic := congrArg PublicKey.hex replaces.publicKey
    rwa [memberSame filed inside member (same.trans samePublic)]
  · exact ⟨rfl, rfl, rfl, rfl⟩

theorem listReplaced {ring : KeyRing} (filed : ring.Filed) {old new : KeyPair} (member : old ∈ ring.list)
    (replaces : new.Replaces old) : (ring.upsert new).list = ring.list.map (putIn new) := by
  have keeps {pair : KeyPair} (inside : pair ∈ ring.list) := putReplaces filed member replaces inside
  apply listUnique (upsertFiled filed new)
  · intro other
    rw [memberUpsert filed, List.mem_map]
    constructor
    · rintro (rfl | ⟨inside, differs⟩)
      · exact ⟨old, member, if_pos (congrArg PublicKey.hex replaces.publicKey.symm)⟩
      · exact ⟨other, inside, if_neg differs⟩
    · rintro ⟨pair, inside, rfl⟩
      unfold putIn
      split
      · exact Or.inl rfl
      · exact Or.inr ⟨inside, by assumption⟩
  · have same : (ring.list.map (putIn new)).map (·.publicKey.hex) = ring.list.map (·.publicKey.hex) := by
      rw [List.map_map]
      exact List.map_congr_left fun pair inside => congrArg PublicKey.hex (keeps inside).publicKey
    rw [same]
    exact listDistinct filed
  · rw [List.pairwise_map]
    refine (listSorted ring).imp_of_mem fun {a b} first second before => ?_
    rw [listedBeforeOk] at before ⊢
    rwa [placeSame (keeps first).index, placeSame (keeps second).index, (keeps first).publicKey,
      (keeps second).publicKey]

theorem listNumbers {ring : KeyRing} (filed : ring.Filed) {old new : KeyPair} (member : old ∈ ring.list)
    (replaces : new.Replaces old) : (ring.upsert new).list.map KeyPair.index = ring.list.map KeyPair.index := by
  rw [listReplaced filed member replaces, List.map_map]
  exact List.map_congr_left fun pair inside => (putReplaces filed member replaces inside).index

theorem changeViews {ring next : KeyRing} (filed : ring.Filed) {key : String}
    {f : KeyPair → Except WalletFault KeyPair} {g : PublicKeyView → PublicKeyView}
    (replaces : ∀ old new, f old = .ok new → new.Replaces old)
    (rewrites : ∀ old new, f old = .ok new → new.view = g old.view) (changed : ring.change key f = .ok next) :
    next.views = ring.views.map fun view => if view.publicKey.hex = key.toLower then g view else view := by
  obtain ⟨old, new, found, done, rfl⟩ := changeSource changed
  have member := findMember found
  have samePublic := congrArg PublicKey.hex (replaces old new done).publicKey
  have lower : new.publicKey.hex = key.toLower := samePublic.trans (findHex filed found)
  rw [views, listReplaced filed member (replaces old new done), views, List.map_map, List.map_map]
  refine List.map_congr_left fun pair inside => ?_
  have viewed : pair.view.publicKey = pair.publicKey := rfl
  rw [Function.comp, Function.comp, viewed, ← lower, putIn]
  split
  · rename_i same
    rw [rewrites old new done, memberSame filed inside member (same.trans samePublic)]
  · rfl

end KeyRing

def firstNumbers (count : Nat) : List UInt32 := (List.range' 1 count).map UInt32.ofNat

theorem memberFirstNumbers {index : UInt32} {count : Nat} (range : index.toNat ∈ List.range' 1 count) :
    index ∈ firstNumbers count :=
  List.mem_map.mpr ⟨index.toNat, range, UInt32.ofNat_toNat⟩

theorem firstNumbersGrow {index : UInt32} {fewer more : Nat} (few : fewer ≤ more)
    (inside : index ∈ firstNumbers fewer) : index ∈ firstNumbers more := by
  obtain ⟨number, range, same⟩ := List.mem_map.mp inside
  rw [List.mem_range'_1] at range
  exact List.mem_map.mpr ⟨number, List.mem_range'_1.mpr (by omega), same⟩

theorem firstNumbersOne {index : UInt32} (inside : index ∈ firstNumbers 1) : index = 1 :=
  List.mem_singleton.mp inside

namespace Wallet

structure Numbered (wallet : Wallet) (node : Node) (count : Nat) : Prop where
  settled : wallet.Settled
  origin : wallet.origin = .derived node
  numbers : wallet.ring.list.map (·.index.map UInt32.toNat) = (List.range' 1 count).map some
  counter : wallet.ring.nextIndex.toNat = count + 1

theorem freshNumbered {name phrase : String} {wallet : Wallet} {node : Node}
    (made : importPhrase name phrase = .ok wallet) (origin : wallet.origin = .derived node) :
    wallet.Numbered node 0 := by
  have fresh : wallet.Fresh := .imported made
  have empty := freshEmpty fresh
  exact ⟨freshSettled fresh, origin, by rw [empty, KeyRing.emptyList]; rfl, by rw [empty]; rfl⟩

theorem numberedIndex {wallet : Wallet} {node : Node} {count : Nat} (numbered : wallet.Numbered node count)
    {pair : KeyPair} (member : pair ∈ wallet.ring.list) :
    ∃ index, pair.index = some index ∧ index.toNat ∈ List.range' 1 count := by
  have inside : pair.index.map UInt32.toNat ∈ wallet.ring.list.map (·.index.map UInt32.toNat) :=
    List.mem_map_of_mem member
  rw [numbered.numbers, List.mem_map] at inside
  obtain ⟨number, range, same⟩ := inside
  obtain ⟨index, found, rfl⟩ := Option.map_eq_some_iff.mp same.symm
  exact ⟨index, found, range⟩

theorem derivePairUntainted {node : Node} {index : UInt32} {pair : KeyPair}
    (derived : derivePair node index = .ok pair) : pair.tainted = false := by
  obtain ⟨_, _, _, _, _, _, _, rfl⟩ := derivePairMade.mp derived
  rfl

theorem nextUnlisted {wallet : Wallet} {node : Node} {count : Nat} {issued : KeyPair}
    (numbered : wallet.Numbered node count) (separates : node.Separates (firstNumbers (count + 1)))
    (made : derivePair node wallet.ring.nextIndex = .ok issued) :
    ∀ old ∈ wallet.ring.list, old.publicKey.hex ≠ issued.publicKey.hex := by
  intro old member same
  have counter := numbered.counter
  have derived := numbered.settled.sound.issued old member
  rw [numbered.origin] at derived
  obtain ⟨index, found, _, twin, derivation, gives⟩ := derived
  obtain ⟨_, again, range⟩ := numberedIndex numbered member
  cases found.symm.trans again
  have inside : index ∈ firstNumbers (count + 1) := by
    apply memberFirstNumbers
    rw [List.mem_range'_1] at range ⊢
    omega
  have last : wallet.ring.nextIndex ∈ firstNumbers (count + 1) := by
    apply memberFirstNumbers
    rw [List.mem_range'_1, counter]
    omega
  -- Otherwise one public key would be derived under two numbers of the node.
  have samePublic : twin.publicKey = issued.publicKey := gives.trans (PublicKey.hexInjective same)
  have sameIndex := separates index inside _ last twin issued derivation made samePublic
  rw [sameIndex, counter, List.mem_range'_1] at range
  omega

theorem generateNumbered {wallet next : Wallet} {node : Node} {count : Nat} {seed : Block 32} {notes : List Note}
    {pair : KeyPair} (numbered : wallet.Numbered node count) (separates : node.Separates (firstNumbers (count + 1)))
    (generated : wallet.generate seed notes = .ok (next, pair)) :
    next.Numbered node (count + 1) ∧ next.ring.views = wallet.ring.views ++ [pair.view] ∧
      pair.index.map UInt32.toNat = some (count + 1) ∧ pair.notes = notes ∧ pair.tainted = false := by
  have settled := movedSettled wallet next numbered.settled (generateMoved generated)
  have filed := numbered.settled.sound.filed
  have counter := numbered.counter
  obtain ⟨issued, made, rfl, rfl⟩ := generateSource generated
  simp only [nextPair, numbered.origin] at made
  obtain ⟨_, number, _⟩ := derivePairSource made
  have annotated : (issued.annotate notes).index = some wallet.ring.nextIndex := number
  have numberOf : (issued.annotate notes).index.map UInt32.toNat = some (count + 1) := by
    rw [annotated, Option.map_some, counter]
  have later : ∀ old ∈ wallet.ring.list, KeyRing.place old < KeyRing.place (issued.annotate notes) := by
    intro old member
    obtain ⟨index, found, range⟩ := numberedIndex numbered member
    rw [List.mem_range'_1] at range
    rw [KeyRing.placeNumbered annotated, KeyRing.placeNumbered found]
    omega
  have unlisted := nextUnlisted numbered separates made
  have list : (wallet.ring.upsert (issued.annotate notes)).list = wallet.ring.list ++ [issued.annotate notes] :=
    KeyRing.listIssued filed unlisted later
  have untainted : issued.tainted = false := derivePairUntainted made
  refine ⟨⟨settled, numbered.origin, ?_, ?_⟩, ?_, numberOf, rfl, untainted⟩
  · rw [file, list, List.map_append, numbered.numbers, List.map_singleton, numberOf, List.range'_concat,
      List.map_append, Nat.one_mul, Nat.add_comm 1 count]
    rfl
  · rw [issueCounts made notes, counter]
  · rw [KeyRing.views, file, list, List.map_append]
    rfl

theorem changeNumbered {wallet next : Wallet} {node : Node} {count : Nat} {key : String}
    {f : KeyPair → Except WalletFault KeyPair} (numbered : wallet.Numbered node count)
    (replaces : ∀ old new, f old = .ok new → new.Replaces old)
    (changed : wallet.withRing (wallet.ring.change key f) = .ok next) : next.Numbered node count := by
  have settled := movedSettled wallet next numbered.settled (changeMoved replaces changed)
  obtain ⟨ring, refiled, rfl⟩ := mapOk.mp changed
  obtain ⟨old, new, found, done, rfl⟩ := KeyRing.changeSource refiled
  have member := KeyRing.findMember found
  refine ⟨settled, numbered.origin, ?_, ?_⟩
  · have same := KeyRing.listNumbers numbered.settled.sound.filed member (replaces old new done)
    have numbers := congrArg (List.map (Option.map UInt32.toNat)) same
    rw [List.map_map, List.map_map] at numbers
    exact numbers.trans numbered.numbers
  · rw [KeyRing.refileNextIndex numbered.settled.sound.ahead member (replaces old new done).index, numbered.counter]

end Wallet

end WalletVault
