import WalletVault.Proofs.Form.RoundTrip
import WalletVault.Proofs.Mnemonic.Acceptance

/-! Wallets of recovery phrases. Whatever takes a phrase accepts the same texts, and sees nothing of them but their
words. -/
namespace WalletVault.Wallet
open Mnemonic (Carries Packs)

theorem importCases (name text : String) :
    (∃ cause, Mnemonic.read text = .error cause ∧ importPhrase name text = .error (.invalidMnemonic cause)) ∨
      ∃ words wallet, Mnemonic.read text = .ok words ∧ importPhrase name text = .ok wallet := by
  cases result : Mnemonic.read text with
  | error cause => exact .inl ⟨cause, rfl, by simp only [importPhrase, result]⟩
  | ok words =>
    obtain ⟨node, made⟩ := importPhraseOk name result
    exact .inr ⟨words, _, rfl, made⟩

theorem importSettled {words : List String} {text : String} (accepted : Mnemonic.read text = .ok words) :
    ∃ node, (Node.ofSeed (Mnemonic.seed words)).derive originIndex = .ok node ∧
      ∀ again, Space.words again = Space.words text → Mnemonic.seedOfText again = .ok (Mnemonic.seed words) ∧
        ∀ name, importPhrase name again = .ok ⟨name, .derived node, .empty⟩ := by
  obtain ⟨node, derived, made⟩ := importNode words
  obtain ⟨separate, written⟩ := Mnemonic.readOk.mp accepted
  refine ⟨node, derived, fun again same => ?_⟩
  have read : Mnemonic.read again = .ok words := Mnemonic.readOk.mpr ⟨separate.trans same.symm, written⟩
  exact ⟨by simp only [Mnemonic.seedOfText, read], fun name => made name again read⟩

/-- A text is accepted exactly if it has the words of the phrase of some entropy, and then there is only one such
entropy. Bytes have a phrase exactly if they are 16, 20, 24, 28 or 32, and its words write their bits with the
checksum behind them. Whatever takes a phrase accepts the same texts: the seed, and the wallet under every name; a
wallet is refused for the reason that the reader gives and no other. Texts with the same words have one seed and one
node. -/
theorem phrasesAcceptedExactly (text : String) :
    ((Mnemonic.read text).isOk = true ↔ ∃ entropy, Carries entropy text) ∧
    (∀ first second, Carries first text → Carries second text → first = second) ∧
    (∀ entropy : Bytes, entropy.length ∈ [16, 20, 24, 28, 32] →
      ∃ phrase numbers, Mnemonic.phrase entropy = .ok phrase ∧ Packs entropy numbers ∧
        Space.words phrase = numbers.map Mnemonic.word) ∧
    (∀ entropy : Bytes, entropy.length ∉ [16, 20, 24, 28, 32] →
      Mnemonic.phrase entropy = .error (.derivation (.entropyLength (8 * entropy.length)))) ∧
    (Mnemonic.seedOfText text).isOk = (Mnemonic.read text).isOk ∧
    (∀ name, (importPhrase name text).isOk = (Mnemonic.read text).isOk) ∧
    (∀ name fault, importPhrase name text = .error fault →
      ∃ cause, Mnemonic.read text = .error cause ∧ fault = .invalidMnemonic cause) ∧
    ((Mnemonic.read text).isOk = true → ∃ seed node, (Node.ofSeed seed).derive originIndex = .ok node ∧
      ∀ again, Space.words again = Space.words text → Mnemonic.seedOfText again = .ok seed ∧
        ∀ name, importPhrase name again = .ok ⟨name, .derived node, .empty⟩) := by
  refine ⟨Mnemonic.readCarried, fun _ _ => Mnemonic.carriedOnce, fun _ => Mnemonic.phraseWritten,
    fun _ => Mnemonic.phraseRefused, ?_, fun name => ?_, fun name fault refused => ?_, fun accepted => ?_⟩
  · cases result : Mnemonic.read text <;> simp only [Mnemonic.seedOfText, result, Except.isOk, Except.toBool]
  · rcases importCases name text with ⟨cause, read, refused⟩ | ⟨words, wallet, read, made⟩
    · rw [read, refused]
      rfl
    · rw [read, made]
      rfl
  · rcases importCases name text with ⟨cause, read, again⟩ | ⟨words, wallet, _, made⟩
    · exact ⟨cause, read, Except.error.inj (refused.symm.trans again)⟩
    · rw [made] at refused
      cases refused
  · cases result : Mnemonic.read text with
    | error fault =>
      rw [result] at accepted
      cases accepted
    | ok words =>
      obtain ⟨node, derived, same⟩ := importSettled result
      exact ⟨Mnemonic.seed words, node, derived, same⟩

def spacedSample : String :=
  "\tabandon abandon abandon abandon  abandon abandon\nabandon abandon abandon abandon abandon about\n"

theorem sampleAcceptedSpaced :
    (∀ entropy, Carries entropy spacedSample ↔ entropy = List.replicate 16 0) ∧
    (∃ node, importPhrase "savings" samplePhrase = .ok ⟨"savings", .derived node, .empty⟩ ∧
      importPhrase "rent" spacedSample = .ok ⟨"rent", .derived node, .empty⟩) ∧
    Mnemonic.phrase [1, 2, 3] = .error (.derivation (.entropyLength 24)) := by
  have fits : (List.replicate 16 (0 : UInt8)).length ∈ [16, 20, 24, 28, 32] := by decide
  have written : Mnemonic.phrase (List.replicate 16 0) = .ok samplePhrase := by decide +kernel
  have same : Space.words spacedSample = Space.words samplePhrase := by decide +kernel
  have carries : Carries (List.replicate 16 0) spacedSample := ⟨fits, _, written, same⟩
  obtain ⟨accepted, once, _, refused, _, _, _, settled⟩ := phrasesAcceptedExactly spacedSample
  obtain ⟨_, node, _, imports⟩ := settled (accepted.mpr ⟨_, carries⟩)
  refine ⟨fun entropy => ⟨fun other => once _ _ other carries, ?_⟩, ⟨node, ?_, ?_⟩, refused [1, 2, 3] (by decide)⟩
  · rintro rfl
    exact carries
  · exact (imports samplePhrase same.symm).2 "savings"
  · exact (imports spacedSample rfl).2 "rent"

end WalletVault.Wallet
