import HollowGrid.Callback
import Mathlib.Data.List.TakeWhile

/-! The passphrases of ffi/auth.c: which phrases a stored hash lets in. -/
namespace HollowGrid

/-- What crypt_r promises for a setting that crypt_gensalt_rn made for the "$2b$" method: it reads
72 bytes of the phrase, a hash is 60 bytes of text that start with the method, and a hash is its
own setting. -/
structure Bcrypt (env : Env) (setting : Bytes) : Prop where
  reads : ∀ phrase, env.crypt phrase setting = env.crypt (phrase.take 72) setting
  text : ∀ phrase hash, 0 ∉ phrase → env.crypt phrase setting = some hash →
    hash.length = 60 ∧ 0 ∉ hash ∧ str "$2b$" <+: hash
  again : ∀ phrase hash, env.crypt phrase setting = some hash →
    ∀ other, env.crypt other hash = env.crypt other setting

/-- The two phrases have hashes of their own. -/
def NoCollision (env : Env) (setting p q : Bytes) : Prop :=
  env.crypt p setting = env.crypt q setting → p.take 72 = q.take 72

section Phrases

variable {env : Env} {g g' : Server} {p q hash setting : Bytes}

theorem crypt_text (bcrypt : Bcrypt env setting) (string : 0 ∉ p)
    (made : env.crypt p setting = some hash) :
    cryptHash env p setting = some hash := by
  obtain ⟨-, ends, rest, whole⟩ := bcrypt.text p hash string made
  have first : hash.head? = some 36 := by rw [← whole, List.head?_append]; rfl
  have whole_text : cstr hash = hash := cstr_whole ends
  rw [cryptHash, made]
  simp [first, whole_text]

theorem hash_made (string : 0 ∉ p)
    (bcrypt : ∀ setting, env.salt g.asked = some setting → Bcrypt env setting)
    (made : hashPassphrase env p g = .ok (some hash, g')) :
    ∃ setting, env.salt g.asked = some setting ∧ env.crypt p setting = some hash := by
  by_cases accepted : phraseOk p = true
  · rw [hashPassphrase, if_pos accepted] at made
    have result := congrArg Prod.fst (Except.ok.inj made)
    obtain ⟨kept, some_hash, fits⟩ := Option.bind_eq_some_iff.mp result
    obtain ⟨setting, salted, crypted⟩ := Option.bind_eq_some_iff.mp some_hash
    split at fits
    · cases fits
    · cases fits
      refine ⟨setting, salted, ?_⟩
      cases run : env.crypt p setting with
      | none => simp [cryptHash, run] at crypted
      | some text =>
        rw [crypt_text (bcrypt setting salted) string run] at crypted
        exact crypted
  · rw [hashPassphrase, if_neg accepted] at made
    cases made

theorem verify_iff (bcrypt : Bcrypt env setting) (string : 0 ∉ p) (other : 0 ∉ q)
    (made : env.crypt p setting = some hash) (accepted : phraseOk q = true) :
    verifyPassphrase env q hash = true ↔ env.crypt q setting = some hash := by
  obtain ⟨long, -, method⟩ := bcrypt.text p hash string made
  have start : (str "$2").isPrefixOf hash = true :=
    List.isPrefixOf_iff_prefix.mpr (List.IsPrefix.trans (by decide) method)
  have resets : env.crypt q hash = env.crypt q setting := bcrypt.again p hash made q
  have same_text : cryptHash env q hash = cryptHash env q setting := by
    rw [cryptHash, resets, cryptHash]
  rw [verifyPassphrase, accepted, start, same_text]
  cases run : env.crypt q setting with
  | none => simp [cryptHash, run]
  | some got =>
    have size := (bcrypt.text q got other run).1
    rw [crypt_text bcrypt other run]
    simp only [Bool.true_and, Option.some.injEq, List.isPrefixOf_iff_prefix]
    constructor
    · intro front
      exact (front.eq_of_length (by omega)).symm
    · rintro rfl
      exact List.prefix_refl _

end Phrases

/-- A hash lets in its own phrase only, unless another has the same 72 bytes in front. -/
theorem phrase_unlocks_iff (env : Env) (g g' : Server) {p q hash : Bytes}
    (string : 0 ∉ p) (other : 0 ∉ q)
    (bcrypt : ∀ setting, env.salt g.asked = some setting → Bcrypt env setting)
    (apart : ∀ setting, env.salt g.asked = some setting → NoCollision env setting p q)
    (accepted : phraseOk q = true) (made : hashPassphrase env p g = .ok (some hash, g')) :
    (verifyPassphrase env q hash = true ↔ q = p) ↔ (q = p ∨ q.take 72 ≠ p.take 72) := by
  obtain ⟨setting, salted, run⟩ := hash_made string bcrypt made
  have method := bcrypt setting salted
  rw [verify_iff method string other run accepted]
  have matches_front : env.crypt q setting = some hash ↔ q.take 72 = p.take 72 := by
    rw [← run]
    constructor
    · intro same
      exact (apart setting salted same.symm).symm
    · intro same
      rw [method.reads q, method.reads p, same]
  rw [matches_front]
  by_cases own : q = p
  · simp [own]
  · simp [own]

theorem quiet_bcrypt : Bcrypt quietNode oneSalt where
  reads := fun phrase => by
    simp [quietNode, bcryptLike, List.take_append, List.take_take]
    omega
  text := by
    rintro phrase hash string ⟨⟩
    refine ⟨by simp [bcryptLike, oneSalt, str], fun there => ?_, by simp [bcryptLike, oneSalt, str]⟩
    rcases List.mem_append.mp there with salt | digest
    · revert salt
      decide
    · rcases List.mem_append.mp (List.mem_of_mem_take digest) with own | pad
      · exact string own
      · exact absurd (List.eq_of_mem_replicate pad) (by decide)
  again := by
    rintro phrase hash ⟨⟩ other
    have salt : oneSalt.length = 29 := by decide
    simp [quietNode, bcryptLike, salt]

theorem phrase_unlocks_password : (verifyPassphrase quietNode (str "passport")
      (bcryptLike (str "password") oneSalt) = true ↔ str "passport" = str "password") ↔
    (str "passport" = str "password" ∨ (str "passport").take 72 ≠ (str "password").take 72) := by
  refine phrase_unlocks_iff quietNode { disk := sharedDisk } { disk := sharedDisk, asked := 1 }
    (by decide) (by decide) ?_ ?_ (by decide) rfl
  · rintro setting ⟨⟩
    exact quiet_bcrypt
  · rintro setting ⟨⟩
    intro same
    revert same
    decide +kernel

/-- Two phrases of 73 bytes that part at the last one open the same character. -/
theorem long_phrase_unlocks : ¬ ∀ (env : Env) (g g' : Server) (p q hash : Bytes), 0 ∉ p → 0 ∉ q →
    (∀ setting, env.salt g.asked = some setting → Bcrypt env setting) →
    (∀ setting, env.salt g.asked = some setting → NoCollision env setting p q) →
    phraseOk q = true → hashPassphrase env p g = .ok (some hash, g') →
    (verifyPassphrase env q hash = true ↔ q = p) := by
  intro always
  have same := always quietNode { disk := sharedDisk } { disk := sharedDisk, asked := 1 }
    (List.replicate 73 97) (List.replicate 72 97 ++ [98])
    (bcryptLike (List.replicate 73 97) oneSalt) (by decide) (by decide) ?_ ?_ (by decide) rfl
  · revert same
    decide +kernel
  · rintro setting ⟨⟩
    exact quiet_bcrypt
  · rintro setting ⟨⟩ -
    decide +kernel

end HollowGrid
