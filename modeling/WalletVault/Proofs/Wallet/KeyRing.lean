import WalletVault.Proofs.Text.Hex
import WalletVault.Proofs.Text.Order

/-! Key rings as finite maps with a counter: where a pair is filed, what the listing holds, how far the
counter is moved, and when a ring is the ring of its own listing. -/
namespace WalletVault

namespace KeyRing

theorem memberList {ring : KeyRing} {pair : KeyPair} :
    pair ∈ ring.list ↔ ∃ key : String, ring.keys[key]? = some pair := by
  rw [list, List.mem_mergeSort, TextMap.memberValues]

theorem emptyList : empty.list = [] := by
  rw [List.eq_nil_iff_forall_not_mem]
  intro pair member
  obtain ⟨key, found⟩ := memberList.mp member
  simp [empty] at found

theorem maxSplit (a b : UInt32) : max a b = if a ≤ b then b else a := rfl

theorem maxBelow (a b bound : UInt32) : max a b ≤ bound ↔ a ≤ bound ∧ b ≤ bound := by
  rw [maxSplit]
  simp only [UInt32.le_iff_toNat_le]
  split <;> omega

theorem maxCases (a b : UInt32) : max a b = a ∨ max a b = b := by
  rw [maxSplit]
  split <;> simp

def following (pair : KeyPair) : UInt32 :=
  match pair.index with
  | some index => after index
  | none => 0

theorem upsertNextIndex (ring : KeyRing) (pair : KeyPair) :
    (ring.upsert pair).nextIndex = max ring.nextIndex (following pair) := by
  cases index : pair.index with
  | none =>
    simp only [upsert, following, index, maxSplit]
    split
    · rename_i below
      exact UInt32.le_antisymm below UInt32.zero_le
    · rfl
  | some number => simp only [upsert, following, index]

theorem upsertUnnumbered (ring : KeyRing) {pair : KeyPair} (unnumbered : pair.index = none) :
    (ring.upsert pair).nextIndex = ring.nextIndex := by
  simp only [upsert, unnumbered]

theorem belowAfter (index : UInt32) : index ≤ after index := by
  have range := index.toNat_lt
  unfold after
  split
  · exact UInt32.le_rfl
  · rename_i notLargest
    have bound : index.toNat ≠ 4294967295 := fun largest => notLargest (UInt32.toNat_inj.mp largest)
    have one : (1 : UInt32).toNat = 1 := rfl
    rw [UInt32.le_iff_toNat_le, UInt32.toNat_add]
    omega

theorem issueNextIndex (ring : KeyRing) {pair : KeyPair} (number : pair.index = some ring.nextIndex) :
    (ring.upsert pair).nextIndex = after ring.nextIndex := by
  rw [upsertNextIndex, following, number, maxSplit, if_pos (belowAfter _)]

theorem nextIndexBelow (ring : KeyRing) (pairs : List KeyPair) (bound : UInt32) :
    (pairs.foldl upsert ring).nextIndex ≤ bound ↔
      ring.nextIndex ≤ bound ∧ ∀ pair ∈ pairs, following pair ≤ bound := by
  induction pairs generalizing ring with
  | nil => simp
  | cons pair pairs ih =>
    rw [List.foldl_cons, ih, upsertNextIndex, maxBelow]
    simp [and_assoc]

theorem nextIndexReached (ring : KeyRing) (pairs : List KeyPair) :
    (pairs.foldl upsert ring).nextIndex = ring.nextIndex ∨
      ∃ pair ∈ pairs, (pairs.foldl upsert ring).nextIndex = following pair := by
  induction pairs generalizing ring with
  | nil => exact Or.inl rfl
  | cons pair pairs ih =>
    rw [List.foldl_cons]
    rcases ih (ring.upsert pair) with kept | ⟨later, member, same⟩
    · rw [kept, upsertNextIndex]
      rcases maxCases ring.nextIndex (following pair) with old | moved
      · exact Or.inl old
      · exact Or.inr ⟨pair, by simp, moved⟩
    · exact Or.inr ⟨later, List.mem_cons_of_mem _ member, same⟩

theorem keysOfFold (ring : KeyRing) (pairs : List KeyPair) (key : String) :
    (pairs.foldl upsert ring).keys[key]? =
      (pairs.reverse.find? (·.publicKey.hex = key)).or ring.keys[key]? := by
  induction pairs generalizing ring with
  | nil => simp
  | cons pair pairs ih =>
    rw [List.foldl_cons, ih, upsert, TextMap.lookupInsert, List.reverse_cons, List.find?_append]
    by_cases same : pair.publicKey.hex = key
    · simp [same]
    · simp [same]

def Filed (ring : KeyRing) : Prop :=
  ∀ (key : String) (pair : KeyPair), ring.keys[key]? = some pair → key = pair.publicKey.hex

theorem emptyFiled : empty.Filed := by
  intro key pair found
  simp [empty] at found

theorem upsertFiled {ring : KeyRing} (filed : ring.Filed) (pair : KeyPair) : (ring.upsert pair).Filed := by
  intro key other found
  rw [upsert, TextMap.lookupInsert] at found
  split at found
  · rename_i same
    cases found
    exact same.symm
  · exact filed key other found

theorem memberFiled {ring : KeyRing} (filed : ring.Filed) {pair : KeyPair} :
    pair ∈ ring.list ↔ ring.keys[pair.publicKey.hex]? = some pair := by
  rw [memberList]
  constructor
  · rintro ⟨key, found⟩
    rwa [filed key pair found] at found
  · exact fun found => ⟨_, found⟩

theorem memberUpsert {ring : KeyRing} (filed : ring.Filed) {pair other : KeyPair} :
    other ∈ (ring.upsert pair).list ↔
      other = pair ∨ (other ∈ ring.list ∧ other.publicKey.hex ≠ pair.publicKey.hex) := by
  rw [memberFiled (upsertFiled filed pair), memberFiled filed, upsert, TextMap.lookupInsert]
  by_cases same : pair.publicKey.hex = other.publicKey.hex
  · simp [same, eq_comm]
  · have different : other ≠ pair := by
      rintro rfl
      exact same rfl
    simp [same, Ne.symm same, different]

theorem foldFiled {ring : KeyRing} (filed : ring.Filed) (pairs : List KeyPair) :
    (pairs.foldl upsert ring).Filed := by
  induction pairs generalizing ring with
  | nil => exact filed
  | cons pair pairs ih => exact ih (upsertFiled filed pair)

theorem ofListFiled (pairs : List KeyPair) : (ofList pairs).Filed := foldFiled emptyFiled pairs

theorem keysOfList (pairs : List KeyPair) (key : String) :
    (ofList pairs).keys[key]? = pairs.reverse.find? (·.publicKey.hex = key) := by
  simp [ofList, keysOfFold, empty]

theorem memberOfList {pairs : List KeyPair} {pair : KeyPair} (member : pair ∈ (ofList pairs).list) :
    pair ∈ pairs := by
  obtain ⟨key, found⟩ := memberList.mp member
  rw [keysOfList] at found
  exact List.mem_reverse.mp (List.mem_of_find?_eq_some found)

theorem keptOfList {pairs : List KeyPair} {pair : KeyPair} (member : pair ∈ pairs) :
    ∃ kept ∈ (ofList pairs).list, kept.publicKey = pair.publicKey := by
  cases found : pairs.reverse.find? (·.publicKey.hex = pair.publicKey.hex) with
  | none =>
    have absent := List.find?_eq_none.mp found pair (List.mem_reverse.mpr member)
    simp at absent
  | some kept =>
    have same : kept.publicKey.hex = pair.publicKey.hex := by simpa using List.find?_some found
    refine ⟨kept, memberList.mpr ⟨pair.publicKey.hex, ?_⟩, PublicKey.hexInjective same⟩
    rw [keysOfList, found]

/-! Rings that are the ring of their own listing. -/

theorem listKeys {ring : KeyRing} (filed : ring.Filed) : (ofList ring.list).keys = ring.keys := by
  apply Std.ExtTreeMap.ext_getElem?
  intro key
  rw [keysOfList]
  cases found : ring.list.reverse.find? (·.publicKey.hex = key) with
  | none =>
    cases stored : ring.keys[key]? with
    | none => rfl
    | some pair =>
      have member : pair ∈ ring.list.reverse := List.mem_reverse.mpr (memberList.mpr ⟨key, stored⟩)
      have absent := List.find?_eq_none.mp found pair member
      simp [filed key pair stored] at absent
  | some pair =>
    have same : pair.publicKey.hex = key := by simpa using List.find?_some found
    have member : pair ∈ ring.list := List.mem_reverse.mp (List.mem_of_find?_eq_some found)
    rw [← same, (memberFiled filed).mp member]

structure Ahead (ring : KeyRing) : Prop where
  positive : 1 ≤ ring.nextIndex
  past : ∀ pair ∈ ring.list, following pair ≤ ring.nextIndex

/-- The counter is where it started, or some pair of the ring has moved it there. -/
def Anchored (ring : KeyRing) : Prop :=
  ring.nextIndex = 1 ∨ ∃ pair ∈ ring.list, following pair = ring.nextIndex

theorem emptyAhead : empty.Ahead := by
  refine ⟨by decide, fun pair member => ?_⟩
  rw [emptyList] at member
  cases member

theorem upsertAhead {ring : KeyRing} (filed : ring.Filed) (ahead : ring.Ahead) (pair : KeyPair) :
    (ring.upsert pair).Ahead := by
  have moved := (maxBelow ring.nextIndex (following pair) _).mp UInt32.le_rfl
  constructor
  · rw [upsertNextIndex]
    exact UInt32.le_trans ahead.positive moved.1
  · intro other member
    rw [upsertNextIndex]
    rcases (memberUpsert filed).mp member with rfl | ⟨old, _⟩
    · exact moved.2
    · exact UInt32.le_trans (ahead.past other old) moved.1

theorem ofListAhead (pairs : List KeyPair) : (ofList pairs).Ahead := by
  have below := (nextIndexBelow empty pairs _).mp UInt32.le_rfl
  exact ⟨below.1, fun pair member => below.2 pair (memberOfList member)⟩

theorem listNextIndex {ring : KeyRing} (ahead : ring.Ahead) (anchored : ring.Anchored) :
    (ofList ring.list).nextIndex = ring.nextIndex := by
  apply UInt32.le_antisymm
  · exact (nextIndexBelow empty ring.list _).mpr ⟨ahead.positive, ahead.past⟩
  · have below := (nextIndexBelow empty ring.list _).mp UInt32.le_rfl
    rcases anchored with start | ⟨pair, member, reached⟩
    · rw [start]; exact below.1
    · rw [← reached]; exact below.2 pair member

theorem upsertAnchored {ring : KeyRing} (filed : ring.Filed) {pair : KeyPair}
    (past : ring.nextIndex ≤ following pair) : (ring.upsert pair).Anchored := by
  refine Or.inr ⟨pair, (memberUpsert filed).mpr (Or.inl rfl), ?_⟩
  rw [upsertNextIndex, maxSplit, if_pos past]

theorem ofListAnchored {pairs : List KeyPair}
    (distinct : ∀ first ∈ pairs, ∀ second ∈ pairs, first.publicKey = second.publicKey →
      first.index = second.index) : (ofList pairs).Anchored := by
  rcases nextIndexReached empty pairs with start | ⟨pair, member, reached⟩
  · exact Or.inl start
  · -- The pair that moved the counter may have been overwritten, but only by one with its public key.
    obtain ⟨kept, inside, samePublic⟩ := keptOfList member
    have sameIndex := distinct kept (memberOfList inside) pair member samePublic
    have sameFollowing : following kept = following pair := by simp only [following, sameIndex]
    exact Or.inr ⟨kept, inside, sameFollowing.trans reached.symm⟩

theorem listRestores {ring : KeyRing} (filed : ring.Filed) (ahead : ring.Ahead) :
    ofList ring.list = ring ↔ ring.Anchored := by
  constructor
  · intro same
    have reached := nextIndexReached empty ring.list
    rw [← ofList, same] at reached
    rcases reached with start | ⟨pair, member, moved⟩
    · exact Or.inl start
    · exact Or.inr ⟨pair, member, moved.symm⟩
  · intro anchored
    exact congr (congrArg KeyRing.mk (listKeys filed)) (listNextIndex ahead anchored)

/-! Looking a pair up. Keys are filed in lower case, so both spellings lead to one place. -/

theorem findFiled {ring : KeyRing} (filed : ring.Filed) (key : String) :
    ring.find? key = ring.keys[key.toLower]? := by
  unfold find?
  split
  · rename_i pair stored
    have lower : key.toLower = key := by
      rw [filed key pair stored]
      exact Hex.encodeLower _
    rw [lower, stored]
  · rfl

theorem findHex {ring : KeyRing} (filed : ring.Filed) {key : String} {pair : KeyPair}
    (found : ring.find? key = some pair) : pair.publicKey.hex = key.toLower := by
  rw [findFiled filed] at found
  exact (filed _ _ found).symm

theorem findFiling {ring : KeyRing} (filed : ring.Filed) (pair : KeyPair) (key : String) :
    (ring.upsert pair).find? key = if pair.publicKey.hex = key.toLower then some pair else ring.find? key := by
  rw [findFiled (upsertFiled filed pair), findFiled filed, upsert, TextMap.lookupInsert]

/-! Changes of a pair that keep its public key and its number. -/

theorem findMember {ring : KeyRing} {key : String} {pair : KeyPair} (found : ring.find? key = some pair) :
    pair ∈ ring.list := by
  unfold find? at found
  split at found
  · rename_i direct
    cases found
    exact memberList.mpr ⟨_, direct⟩
  · exact memberList.mpr ⟨_, found⟩

theorem changeSource {ring next : KeyRing} {key : String} {f : KeyPair → Except WalletFault KeyPair}
    (changed : ring.change key f = .ok next) :
    ∃ old new, ring.find? key = some old ∧ f old = .ok new ∧ next = ring.upsert new := by
  unfold change require at changed
  cases found : ring.find? key with
  | none => simp [found, bind, Except.bind] at changed
  | some old =>
    simp only [found, bind, Except.bind] at changed
    cases result : f old with
    | error fault => simp [result] at changed
    | ok new =>
      simp only [result, pure, Except.pure, Except.ok.injEq] at changed
      exact ⟨old, new, rfl, result, changed.symm⟩

theorem findUpsert {ring : KeyRing} {key : String} {old : KeyPair} (found : ring.find? key = some old)
    (new : KeyPair) : ∃ pair, (ring.upsert new).find? key = some pair := by
  have kept (place : String) (stored : ring.keys[place]? = some old) :
      ∃ pair, (ring.upsert new).keys[place]? = some pair := by
    rw [upsert, TextMap.lookupInsert]
    split
    · exact ⟨new, rfl⟩
    · exact ⟨old, stored⟩
  unfold find? at found ⊢
  split
  · rename_i pair _
    exact ⟨pair, rfl⟩
  · rename_i missing
    split at found
    · rename_i direct
      obtain ⟨pair, stored⟩ := kept key (direct.trans found)
      rw [missing] at stored
      cases stored
    · exact kept key.toLower found

theorem describeOk {ring : KeyRing} {key : String} {pair : KeyPair} (found : ring.find? key = some pair) :
    ring.describe key = .ok pair.view := by
  simp only [describe, require, found]
  rfl

theorem refileNextIndex {ring : KeyRing} (ahead : ring.Ahead) {old new : KeyPair} (member : old ∈ ring.list)
    (index : new.index = old.index) : (ring.upsert new).nextIndex = ring.nextIndex := by
  have same : following new = following old := by simp only [following, index]
  have below := ahead.past old member
  rw [upsertNextIndex, same]
  apply UInt32.le_antisymm
  · exact (maxBelow _ _ _).mpr ⟨UInt32.le_rfl, below⟩
  · exact ((maxBelow _ _ _).mp UInt32.le_rfl).1

theorem refileAnchored {ring : KeyRing} (filed : ring.Filed) (ahead : ring.Ahead) (anchored : ring.Anchored)
    {old new : KeyPair} (member : old ∈ ring.list) (index : new.index = old.index)
    (publicKey : new.publicKey = old.publicKey) : (ring.upsert new).Anchored := by
  have counter := refileNextIndex ahead member index
  rcases anchored with start | ⟨pair, inside, reached⟩
  · exact Or.inl (counter.trans start)
  · -- The anchor may be the very pair that is replaced; then the new pair has its number.
    by_cases same : pair.publicKey.hex = new.publicKey.hex
    · have samePair : pair = old := by
        rw [publicKey] at same
        have left := (memberFiled filed).mp inside
        rw [same, (memberFiled filed).mp member] at left
        exact (Option.some.inj left).symm
      have moved : following new = following pair := by simp only [following, index, samePair]
      exact Or.inr ⟨new, (memberUpsert filed).mpr (Or.inl rfl), by rw [counter, moved, reached]⟩
    · exact Or.inr ⟨pair, (memberUpsert filed).mpr (Or.inr ⟨inside, same⟩), by rw [counter, reached]⟩

end KeyRing

end WalletVault
