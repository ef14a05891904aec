import Mathlib.Data.Set.Insert
import WalletVault.Form.Public
import WalletVault.Proofs.Wallet.FiniteMap
import WalletVault.Session.Call
import WalletVault.Store.Memory

/-! What the queries of a session read. The projection of a session has, for each name that is logged in, the name and
the version of the wallet and the views of its keys, as a set; private keys, nodes, counters and the store are not in
it. Sessions of one projection give one answer to every query, however their maps are arranged. -/
namespace WalletVault

def PublicKeyView.bare (view : PublicKeyView) : KeyPair :=
  ⟨view.index, view.publicKey, ⟨[]⟩, view.tainted, view.notes, view.algorithm⟩

def PublicKeyView.ListedBefore (a b : PublicKeyView) : Prop := KeyRing.listedBefore a.bare b.bare = true

theorem KeyPair.verifyAnyView (pair : KeyPair) (data signature : Bytes) :
    pair.verifyAny data signature = pair.view.bare.verifyAny data signature := rfl

namespace KeyRing
variable {ring first second : KeyRing} {key : String} {view : PublicKeyView}

def shown (ring : KeyRing) : Set PublicKeyView :=
  {view | ∃ (key : String) (pair : KeyPair), ring.keys[key]? = some pair ∧ pair.view = view}

theorem shownList : view ∈ ring.shown ↔ ∃ pair ∈ ring.list, pair.view = view := by
  constructor
  · rintro ⟨key, pair, stored, rfl⟩
    exact ⟨pair, memberList.mpr ⟨key, stored⟩, rfl⟩
  · rintro ⟨pair, member, rfl⟩
    obtain ⟨key, stored⟩ := memberList.mp member
    exact ⟨key, pair, stored, rfl⟩

theorem shownUpsert (filed : ring.Filed) (pair : KeyPair) : view ∈ (ring.upsert pair).shown ↔
    view = pair.view ∨ view ∈ ring.shown ∧ view.publicKey.hex ≠ pair.publicKey.hex := by
  simp only [shownList, memberUpsert filed]
  constructor
  · rintro ⟨other, rfl | ⟨member, differs⟩, rfl⟩
    · exact Or.inl rfl
    · exact Or.inr ⟨⟨other, member, rfl⟩, differs⟩
  · rintro (rfl | ⟨⟨other, member, rfl⟩, differs⟩)
    · exact ⟨pair, Or.inl rfl, rfl⟩
    · exact ⟨other, Or.inr ⟨member, differs⟩, rfl⟩

theorem findShown (filed : ring.Filed) :
    (ring.find? key).map KeyPair.view = some view ↔ view ∈ ring.shown ∧ view.publicKey.hex = key.toLower := by
  rw [Option.map_eq_some_iff, shownList]
  constructor
  · rintro ⟨pair, found, rfl⟩
    exact ⟨⟨pair, findMember found, rfl⟩, findHex filed found⟩
  · rintro ⟨⟨pair, member, rfl⟩, written⟩
    refine ⟨pair, ?_, rfl⟩
    rw [findFiled filed, ← written]
    exact (memberFiled filed).mp member

theorem viewsSorted (ring : KeyRing) : ring.views.Pairwise PublicKeyView.ListedBefore :=
  List.pairwise_map.mpr (listSorted ring)

theorem viewsDistinct (filed : ring.Filed) : (ring.views.map (·.publicKey.hex)).Nodup := by
  rw [views, List.map_map]
  exact listDistinct filed

structure SeenAlike (first second : KeyRing) : Prop where
  left : first.Filed
  right : second.Filed
  shown : first.shown = second.shown

theorem alikeFind (alike : first.SeenAlike second) (key : String) :
    (first.find? key).map KeyPair.view = (second.find? key).map KeyPair.view := by
  refine Option.ext fun view => ?_
  rw [findShown alike.left, findShown alike.right, alike.shown]

theorem alikeViews (alike : first.SeenAlike second) : first.views = second.views := by
  have members (view : PublicKeyView) : view ∈ first.views ↔ view ∈ second.views := by
    rw [views, List.mem_map, ← shownList, alike.shown, shownList, ← List.mem_map, ← views]
  have same : first.views.Perm second.views :=
    (List.perm_ext_iff_of_nodup (viewsDistinct alike.left).of_map (viewsDistinct alike.right).of_map).mpr members
  refine same.eq_of_pairwise ?_ (viewsSorted first) (viewsSorted second)
  intro a b inside other before after
  -- The digits settle the order among distinct keys, and no two views of a ring have the same digits.
  exact List.inj_on_of_nodup_map (viewsDistinct alike.left) inside ((members b).mpr other) (listedBoth before after)

theorem alikeRequire {α : Type} (alike : first.SeenAlike second) (key : String) {f : KeyPair → Except WalletFault α}
    (reads : ∀ a b : KeyPair, a.view = b.view → f a = f b) :
    (first.require key).bind f = (second.require key).bind f := by
  have found := alikeFind alike key
  unfold require
  cases left : first.find? key with
  | none =>
    rw [left, Option.map_none, eq_comm, Option.map_eq_none_iff] at found
    rw [found]
  | some a =>
    rw [left, Option.map_some, eq_comm, Option.map_eq_some_iff] at found
    obtain ⟨b, right, same⟩ := found
    rw [right]
    exact reads a b same.symm

theorem alikeDescribe (alike : first.SeenAlike second) (key : String) : first.describe key = second.describe key := by
  have bound (ring : KeyRing) : ring.describe key = (ring.require key).bind fun pair => .ok pair.view := by
    rw [describe]
    cases ring.require key <;> rfl
  rw [bound, bound]
  exact alikeRequire alike key fun _ _ same => congrArg Except.ok same

theorem alikeVerify (alike : first.SeenAlike second) (key : String) (data signature : Bytes) :
    first.verifyAny key data signature = second.verifyAny key data signature := by
  refine alikeRequire alike key fun a b same => ?_
  rw [a.verifyAnyView, same, ← b.verifyAnyView]

end KeyRing

structure Projection where
  name : String
  version : UInt32
  keys : Set PublicKeyView

namespace Wallet

def projection (wallet : Wallet) : Projection := ⟨wallet.name, wallet.version, wallet.ring.shown⟩

/-- The view of a wallet when its pairs are taken out of the map in a given order. -/
def viewFrom (wallet : Wallet) (order : List KeyPair) : PublicWallet :=
  ⟨wallet.version, wallet.name, (order.mergeSort KeyRing.listedBefore).map KeyPair.view⟩

theorem viewAnyOrder {wallet : Wallet} (filed : wallet.ring.Filed) {order : List KeyPair}
    (taken : order.Perm wallet.ring.keys.values) : wallet.viewFrom order = wallet.view := by
  rw [viewFrom, KeyRing.listAnyOrder filed taken]
  rfl

structure SeenAlike (first second : Wallet) : Prop where
  ring : first.ring.SeenAlike second.ring
  name : first.name = second.name
  version : first.version = second.version

theorem alikeView {first second : Wallet} (alike : first.SeenAlike second) : first.view = second.view := by
  rw [view, view, alike.name, alike.version, KeyRing.alikeViews alike.ring]

end Wallet

inductive Call.Reads : Call → Prop where
  | isLoggedIn (name : String) : Reads (.isLoggedIn name)
  | wallet (name : String) : Reads (.wallet name)
  | publicKeys (name : String) : Reads (.publicKeys name)
  | publicKey (name key : String) : Reads (.publicKey name key)
  | verifyAny (name key : String) (data signature : Bytes) : Reads (.verifyAny name key data signature)

namespace Session
variable {σ τ : Type} {first : Session σ} {second : Session τ}

def projection (session : Session σ) (name : String) : Option Projection :=
  session.loaded[name]?.map Wallet.projection

def Filed (session : Session σ) : Prop :=
  ∀ (name : String) (wallet : Wallet), session.loaded[name]? = some wallet → wallet.ring.Filed

inductive AlikeUnder (first : Session σ) (second : Session τ) (name : String) : Prop where
  | away (left : first.loaded[name]? = none) (right : second.loaded[name]? = none)
  | loaded {wallet other : Wallet} (left : first.loaded[name]? = some wallet)
      (right : second.loaded[name]? = some other) (alike : wallet.SeenAlike other)

theorem projectionAlike (left : first.Filed) (right : second.Filed) (same : first.projection = second.projection)
    (name : String) : AlikeUnder first second name := by
  have here : first.loaded[name]?.map Wallet.projection = second.loaded[name]?.map Wallet.projection :=
    congrFun same name
  cases stored : first.loaded[name]? with
  | none =>
    rw [stored, Option.map_none, eq_comm, Option.map_eq_none_iff] at here
    exact .away stored here
  | some wallet =>
    rw [stored, Option.map_some, eq_comm, Option.map_eq_some_iff] at here
    obtain ⟨other, found, projected⟩ := here
    obtain ⟨sameName, sameVersion, sameKeys⟩ := Projection.mk.inj projected.symm
    exact .loaded stored found ⟨⟨left name wallet stored, right name other found, sameKeys⟩, sameName, sameVersion⟩

namespace AlikeUnder
variable {name : String}

theorem isLoggedIn (alike : AlikeUnder first second name) : first.isLoggedIn name = second.isLoggedIn name := by
  rw [Session.isLoggedIn, Session.isLoggedIn, Std.ExtTreeMap.contains_eq_isSome_getElem?,
    Std.ExtTreeMap.contains_eq_isSome_getElem?]
  cases alike with
  | away left right => rw [left, right]
  | loaded left right alike => rw [left, right]; rfl

theorem query {α : Type} (alike : AlikeUnder first second name) {f : Wallet → Except WalletFault α}
    (reads : ∀ wallet other : Wallet, wallet.SeenAlike other → f wallet = f other) :
    first.query name f = second.query name f := by
  unfold Session.query
  cases alike with
  | away left right => rw [left, right]
  | loaded left right alike => rw [left, right]; exact congrArg (Except.mapError SessionFault.wallet) (reads _ _ alike)

theorem wallet (alike : AlikeUnder first second name) : first.wallet name = second.wallet name :=
  alike.query fun _ _ same => congrArg Except.ok (Wallet.alikeView same)

theorem publicKeys (alike : AlikeUnder first second name) : first.publicKeys name = second.publicKeys name :=
  alike.query fun _ _ same => congrArg Except.ok (KeyRing.alikeViews same.ring)

theorem publicKey (alike : AlikeUnder first second name) (key : String) :
    first.publicKey name key = second.publicKey name key :=
  alike.query fun _ _ same => KeyRing.alikeDescribe same.ring key

theorem verifyAny (alike : AlikeUnder first second name) (key : String) (data signature : Bytes) :
    first.verifyAny name key data signature = second.verifyAny name key data signature :=
  alike.query fun _ _ same => KeyRing.alikeVerify same.ring key data signature

end AlikeUnder

theorem walletAnyOrder {session : Session σ} (filed : session.Filed) {name : String} {wallet : Wallet}
    (stored : session.loaded[name]? = some wallet) {order : List KeyPair}
    (taken : order.Perm wallet.ring.keys.values) :
    session.wallet name = .ok (wallet.viewFrom order) ∧
      session.publicKeys name = .ok (wallet.viewFrom order).keys := by
  rw [Wallet.viewAnyOrder (filed name wallet stored) taken, Session.wallet, Session.publicKeys, Session.query,
    Session.query, stored]
  exact ⟨rfl, rfl⟩

variable [WalletStore σ] [WalletStore τ]

theorem readsAlike (alike : ∀ name, AlikeUnder first second name) {call : Call} (reads : call.Reads)
    (draw : Draw) : (first.step draw call).1 = (second.step draw call).1 ∧
      (first.step draw call).2 = first ∧ (second.step draw call).2 = second := by
  refine ⟨?_, by cases reads <;> rfl, by cases reads <;> rfl⟩
  cases reads with
  | isLoggedIn name => exact congrArg (Except.ok ∘ Reply.flag) (alike name).isLoggedIn
  | wallet name => exact congrArg (Except.map Reply.wallet) (alike name).wallet
  | publicKeys name => exact congrArg (Except.map Reply.keys) (alike name).publicKeys
  | publicKey name key => exact congrArg (Except.map Reply.key) ((alike name).publicKey key)
  | verifyAny name key data signature =>
    exact congrArg (Except.map Reply.flag) ((alike name).verifyAny key data signature)

theorem runReadsAlike (alike : ∀ name, AlikeUnder first second name) {calls : List (Draw × Call)}
    (reads : ∀ entry ∈ calls, entry.2.Reads) : (first.run calls).1 = (second.run calls).1 := by
  induction calls with
  | nil => rfl
  | cons entry rest ih =>
    obtain ⟨draw, call⟩ := entry
    obtain ⟨reply, left, right⟩ := readsAlike alike (reads _ List.mem_cons_self) draw
    have later := ih fun entry member => reads entry (List.mem_cons_of_mem _ member)
    simp only [run, left, right, reply, later]

/-- Queries are functions of the public projection. Take two sessions, over whatever stores, in which every key is
filed under its own digits, and let their projections agree: the same names are logged in, and the wallets of one name
have the same version and the same set of views. Then every query has the same answer or the same fault in both, alone
or in a run of queries. The listing and its written forms do not depend on the order in which either map gives its
pairs away. -/
theorem queriesReadProjection (left : first.Filed) (right : second.Filed)
    (same : first.projection = second.projection) :
    (∀ name, first.isLoggedIn name = second.isLoggedIn name ∧
      first.wallet name = second.wallet name ∧
      first.publicKeys name = second.publicKeys name ∧
      (∀ key, first.publicKey name key = second.publicKey name key) ∧
      ∀ key data signature, first.verifyAny name key data signature = second.verifyAny name key data signature) ∧
    (∀ calls, (∀ entry ∈ calls, entry.2.Reads) → (first.run calls).1 = (second.run calls).1) ∧
    ∀ (name : String) (wallet other : Wallet), first.loaded[name]? = some wallet →
      second.loaded[name]? = some other →
      ∀ order others : List KeyPair, order.Perm wallet.ring.keys.values → others.Perm other.ring.keys.values →
        first.wallet name = .ok (wallet.viewFrom order) ∧ second.wallet name = .ok (other.viewFrom others) ∧
        first.publicKeys name = .ok (wallet.viewFrom order).keys ∧
        second.publicKeys name = .ok (other.viewFrom others).keys ∧
        (wallet.viewFrom order).json.compact = (other.viewFrom others).json.compact ∧
        (wallet.viewFrom order).json.indented 0 = (other.viewFrom others).json.indented 0 := by
  have alike := projectionAlike left right same
  refine ⟨fun name => ?_, fun calls reads => runReadsAlike alike reads, ?_⟩
  · exact ⟨(alike name).isLoggedIn, (alike name).wallet, (alike name).publicKeys, (alike name).publicKey,
      (alike name).verifyAny⟩
  · intro name wallet other stored found order others taken given
    obtain ⟨here, listed⟩ := walletAnyOrder left stored taken
    obtain ⟨there, relisted⟩ := walletAnyOrder right found given
    have views : wallet.viewFrom order = other.viewFrom others :=
      Except.ok.inj (here.symm.trans ((alike name).wallet.trans there))
    exact ⟨here, there, listed, relisted, by rw [views], by rw [views]⟩

def sampleHolding (node : Node) (pairs : List KeyPair) (nextIndex : UInt32) : Wallet :=
  ⟨"savings", .derived node, (KeyRing.ofList pairs).keys, nextIndex⟩

def sampleMine : Wallet :=
  sampleHolding ⟨Wallet.sampleSeed, Wallet.sampleSeed⟩ [KeyRing.sampleUnnumbered, KeyRing.sampleSecond] 3

def sampleYours : Wallet :=
  sampleHolding ⟨Wallet.sampleSeed, ⟨List.replicate 32 9, rfl⟩⟩
    [{ KeyRing.sampleSecond with privateKey := ⟨[8]⟩ }, { KeyRing.sampleUnnumbered with privateKey := ⟨[]⟩ }] 9

def sampleHolder (store : MemoryStore) (wallet : Wallet) : Session MemoryStore :=
  ⟨store, (∅ : TextMap Wallet).insert "savings" wallet⟩

theorem sampleHeld (store : MemoryStore) (wallet : Wallet) (name : String) :
    (sampleHolder store wallet).loaded[name]? = if "savings" = name then some wallet else none := by
  rw [sampleHolder, TextMap.lookupInsert]
  simp

theorem sampleHolderFiled (store : MemoryStore) {wallet : Wallet} (filed : wallet.ring.Filed) :
    (sampleHolder store wallet).Filed := by
  intro name other stored
  rw [sampleHeld] at stored
  split at stored
  · cases stored
    exact filed
  · cases stored

theorem sampleShown {a b : KeyPair} (differs : a.publicKey.hex ≠ b.publicKey.hex) :
    (KeyRing.ofList [a, b]).shown = {b.view, a.view} := by
  ext view
  have unshown : view ∉ KeyRing.empty.shown := by
    rw [KeyRing.shownList, KeyRing.emptyList]
    simp
  change view ∈ ((KeyRing.empty.upsert a).upsert b).shown ↔ _
  rw [KeyRing.shownUpsert (KeyRing.upsertFiled KeyRing.emptyFiled a), KeyRing.shownUpsert KeyRing.emptyFiled,
    Set.mem_insert_iff, Set.mem_singleton_iff]
  refine or_congr_right ⟨?_, ?_⟩
  · rintro ⟨rfl | ⟨inside, _⟩, _⟩
    · rfl
    · exact absurd inside unshown
  · rintro rfl
    exact ⟨Or.inl rfl, differs⟩

theorem sampleSameProjection : sampleMine.projection = sampleYours.projection := by
  have mine : sampleMine.ring.shown = {KeyRing.sampleSecond.view, KeyRing.sampleUnnumbered.view} :=
    sampleShown (by decide +kernel)
  have yours : sampleYours.ring.shown = {KeyRing.sampleUnnumbered.view, KeyRing.sampleSecond.view} :=
    sampleShown (by decide +kernel)
  rw [Wallet.projection, mine, Set.pair_comm, ← yours]
  rfl

def sampleHere : Session MemoryStore := sampleHolder .empty sampleMine

def sampleThere : Session MemoryStore := sampleHolder (MemoryStore.empty.put "travel" [1]) sampleYours

theorem sampleReadAlike : sampleHere.Filed ∧ sampleThere.Filed ∧ sampleHere.projection = sampleThere.projection ∧
    sampleHere.loaded["savings"]? ≠ sampleThere.loaded["savings"]? ∧
    sampleHere.verifyAny "savings" "aB" [1] [2] = sampleThere.verifyAny "savings" "aB" [1] [2] ∧
    (∀ draw, (sampleHere.run [(draw, .publicKey "savings" "cd"), (draw, .isLoggedIn "travel")]).1 =
      (sampleThere.run [(draw, .publicKey "savings" "cd"), (draw, .isLoggedIn "travel")]).1) ∧
    ∃ order others : List KeyPair, order.Perm sampleMine.ring.keys.values ∧
      others.Perm sampleYours.ring.keys.values ∧ sampleHere.wallet "savings" = .ok (sampleMine.viewFrom order) ∧
      (sampleMine.viewFrom order).json.compact = (sampleYours.viewFrom others).json.compact := by
  have left : sampleHere.Filed := sampleHolderFiled _ (KeyRing.ofListFiled _)
  have right : sampleThere.Filed := sampleHolderFiled _ (KeyRing.ofListFiled _)
  have here : sampleHere.loaded["savings"]? = some sampleMine := sampleHeld _ _ _
  have there : sampleThere.loaded["savings"]? = some sampleYours := sampleHeld _ _ _
  have same : sampleHere.projection = sampleThere.projection := by
    funext name
    rw [projection, projection, sampleHere, sampleThere, sampleHeld, sampleHeld]
    split
    · exact congrArg some sampleSameProjection
    · rfl
  have differ : sampleHere.loaded["savings"]? ≠ sampleThere.loaded["savings"]? := by
    rw [here, there]
    intro equal
    have counters : (3 : UInt32) = 9 := congrArg (·.ring.nextIndex) (Option.some.inj equal)
    exact absurd counters (by decide)
  obtain ⟨answers, runs, orders⟩ := queriesReadProjection left right same
  have mine := List.reverse_perm sampleMine.ring.keys.values
  have yours := List.Perm.refl sampleYours.ring.keys.values
  obtain ⟨viewed, _, _, _, written, _⟩ := orders "savings" _ _ here there _ _ mine yours
  refine ⟨left, right, same, differ, (answers _).2.2.2.2 _ _ _, fun draw => runs _ ?_, _, _, mine, yours, viewed,
    written⟩
  rintro entry (_ | ⟨_, _ | ⟨_, ⟨⟩⟩⟩)
  · exact .publicKey _ _
  · exact .isLoggedIn _

end Session

end WalletVault
