import Sanshain.Document.Platform
import Sanshain.Domain.Models
import Sanshain.Text.Fields
import Sanshain.Text.Trim

namespace Sanshain.Guarantees

open Sanshain.Domain Sanshain.Text

section Grammar

/-- The parts a version leaves out are zero. -/
def versionOf : List ℕ → Option SemVer
  | [major] => some ⟨.ofNat major, 0, 0⟩
  | [major, minor] => some ⟨.ofNat major, .ofNat minor, 0⟩
  | [major, minor, patch] => some ⟨.ofNat major, .ofNat minor, .ofNat patch⟩
  | _ => none

/-- One to three numbers with a dot between each two, after an optional `v` or `V`. -/
def VersionText (Part : List Char → ℕ → Prop) (text : List Char) (version : SemVer) : Prop :=
  ∃ body numbers, (text = body ∨ text = 'v' :: body ∨ text = 'V' :: body) ∧
    Fields '.' Part body numbers ∧ versionOf numbers = some version

/-- The numbers of a version. -/
def IsPart : List Char → ℕ → Prop := Numeral (2 ^ 32)

/-- A version text as the standard library's numbers make it: with plus signs before them. -/
def IsSignedPart : List Char → ℕ → Prop := SignedNumeral (2 ^ 32)

/-- A version text in which some number carries a plus sign. -/
def SignedVersion (text : List Char) : Prop :=
  '+' ∈ text ∧ ∃ version, VersionText IsSignedPart text version

def IsVersionChar (c : Char) : Prop := isAsciiDigit c = true ∨ c = '+' ∨ c = '.'

variable {text body : List Char} {numbers : List ℕ} {version : SemVer}

theorem versionChar_of_signed (fields : Fields '.' IsSignedPart body numbers) :
    ∀ c ∈ body, IsVersionChar c := by
  refine fields.forall_mem IsVersionChar (.inr (.inr rfl)) ?_
  rintro field number (numeral | ⟨digits, rfl, numeral⟩) c among
  · exact .inl (numeral.digit c among)
  · obtain rfl | among := List.mem_cons.mp among
    · exact .inr (.inl rfl)
    · exact .inl (numeral.digit c among)

theorem signed_of_plain (fields : Fields '.' IsPart body numbers) : Fields '.' IsSignedPart body numbers :=
  fields.mono fun _ _ numeral => .inl numeral

theorem versionText_signed (plain : VersionText IsPart text version) :
    VersionText IsSignedPart text version := by
  obtain ⟨body, numbers, marked, fields, denotes⟩ := plain
  exact ⟨body, numbers, marked, signed_of_plain fields, denotes⟩

theorem plain_of_unsigned (fields : Fields '.' IsSignedPart body numbers) (unsigned : '+' ∉ body) :
    Fields '.' IsPart body numbers := by
  refine fields.narrow (fun c => c ≠ '+') (fun c among same => unsigned (same ▸ among)) ?_
  rintro field number (numeral | ⟨digits, rfl, -⟩) told
  · exact numeral
  · exact absurd rfl (told '+' List.mem_cons_self)

theorem notMem_of_versionText (plain : VersionText IsPart text version) {c : Char}
    (other : isAsciiDigit c = false) (dot : c ≠ '.') (mark : c ≠ 'v') (bigMark : c ≠ 'V') : c ∉ text := by
  obtain ⟨body, numbers, marked, fields, -⟩ := plain
  have out : c ∉ body := by
    intro among
    have told := fields.forall_mem (fun c => isAsciiDigit c = true ∨ c = '.') (.inr rfl)
      (fun _ _ numeral c among => .inl (numeral.digit c among)) c among
    obtain digit | same := told
    · rw [other] at digit
      cases digit
    · exact dot same
  obtain rfl | rfl | rfl := marked
  · exact out
  · exact List.not_mem_cons_of_ne_of_not_mem mark out
  · exact List.not_mem_cons_of_ne_of_not_mem bigMark out

/-- No sign stands in a version text of the grammar. -/
theorem unsigned_of_versionText (plain : VersionText IsPart text version) : '+' ∉ text ∧ '-' ∉ text :=
  ⟨notMem_of_versionText plain (by decide) (by decide) (by decide) (by decide),
    notMem_of_versionText plain (by decide) (by decide) (by decide) (by decide)⟩

end Grammar

section Readers

variable {version : SemVer}

/-- The text without the mark of a version. -/
def unmarked : List Char → List Char
  | 'v' :: rest => rest
  | 'V' :: rest => rest
  | whole => whole

theorem fromStr_eq (text : String) : SemVer.fromStr text =
    ((splitChars '.' (unmarked text.toList)).mapM (parseUnsigned (2 ^ 32))).bind versionOf := by
  have digits (numbers : Option (List ℕ))
      (read : (splitChars '.' (unmarked text.toList)).mapM (parseUnsigned (2 ^ 32)) = numbers) :
      SemVer.fromStr text = numbers.bind versionOf := by
    unfold SemVer.fromStr
    dsimp only
    erw [read]
    cases numbers with
    | none => rfl
    | some numbers =>
        obtain _ | ⟨major, _ | ⟨minor, _ | ⟨patch, _ | _⟩⟩⟩ := numbers
        all_goals rfl
  exact digits _ rfl

theorem unmarked_iff {text body : List Char} (plain : ∀ c ∈ body, IsVersionChar c) :
    unmarked text = body ↔ text = body ∨ text = 'v' :: body ∨ text = 'V' :: body := by
  have small : ¬IsVersionChar 'v' := by
    unfold IsVersionChar
    decide
  have big : ¬IsVersionChar 'V' := by
    unfold IsVersionChar
    decide
  constructor
  · unfold unmarked
    split
    · rintro rfl
      exact .inr (.inl rfl)
    · rintro rfl
      exact .inr (.inr rfl)
    · exact .inl
  · rintro (rfl | rfl | rfl)
    · unfold unmarked
      split
      · exact absurd (plain _ List.mem_cons_self) small
      · exact absurd (plain _ List.mem_cons_self) big
      · rfl
    · rfl
    · rfl

/-- The reader of a request takes the version texts with signs. -/
theorem fromStr_iff (text : String) (version : SemVer) :
    SemVer.fromStr text = some version ↔ VersionText IsSignedPart text.toList version := by
  have apart (field : List Char) (number : ℕ) (part : SignedNumeral (2 ^ 32) field number) :
      '.' ∉ field := by
    obtain numeral | ⟨digits, rfl, numeral⟩ := part
    · exact numeral.notMem (by decide)
    · exact List.not_mem_cons_of_ne_of_not_mem (by decide) (numeral.notMem (by decide))
  have splits (body : List Char) (numbers : List ℕ) :
      (splitChars '.' body).mapM (parseUnsigned (2 ^ 32)) = some numbers ↔
        Fields '.' IsSignedPart body numbers :=
    splitChars_mapM_iff parseUnsigned_iff apart body numbers
  rw [fromStr_eq, Option.bind_eq_some_iff]
  constructor
  · rintro ⟨numbers, read, denotes⟩
    have fields := (splits _ numbers).mp read
    exact ⟨_, numbers, (unmarked_iff (versionChar_of_signed fields)).mp rfl, fields, denotes⟩
  · rintro ⟨body, numbers, marked, fields, denotes⟩
    refine ⟨numbers, ?_, denotes⟩
    rw [(unmarked_iff (versionChar_of_signed fields)).mpr marked]
    exact (splits body numbers).mpr fields

/-- Without a sign in it, a version text is one of the grammar. -/
theorem fromStr_unsigned_iff {text : String} (unsigned : '+' ∉ text.toList) (version : SemVer) :
    SemVer.fromStr text = some version ↔ VersionText IsPart text.toList version := by
  rw [fromStr_iff]
  constructor
  · rintro ⟨body, numbers, marked, fields, denotes⟩
    refine ⟨body, numbers, marked, plain_of_unsigned fields fun among => unsigned ?_, denotes⟩
    obtain same | same | same := marked
    · exact same ▸ among
    · exact same ▸ List.mem_cons_of_mem _ among
    · exact same ▸ List.mem_cons_of_mem _ among
  · exact versionText_signed

variable {toUppercase toLowercase : String → String}

theorem contains_mem {pattern text : List Char} {c : Char} (among : c ∈ pattern)
    (found : containsChars pattern text = true) : c ∈ text := by
  induction text with
  | nil =>
      rw [containsChars, List.isEmpty_iff] at found
      rw [found] at among
      cases among
  | cons first rest ih =>
      rw [containsChars, Bool.or_eq_true] at found
      obtain start | later := found
      · exact (List.isPrefixOf_iff_prefix.mp start).subset among
      · exact List.mem_cons_of_mem _ (ih later)

/-- The reader of a document takes exactly the version texts of the grammar, blanks around them
apart. -/
theorem parseSpecVersion_iff
    (keeps : ∀ text, '-' ∈ (toUppercase text).toList → '-' ∈ text.toList) (raw : String)
    (version : SemVer) :
    SemVer.parseSpecVersion toUppercase toLowercase raw = .ok version ↔
      VersionText IsPart (trim raw).toList version := by
  have full (plain : VersionText IsPart (trim raw).toList version) : trim raw ≠ "" := by
    obtain ⟨body, numbers, marked, fields, -⟩ := plain
    intro empty
    rw [empty] at marked
    obtain same | same | same := marked
    · exact fields.ne_nil (fun _ _ numeral => numeral.some) same.symm
    · cases same
    · cases same
  unfold SemVer.parseSpecVersion
  dsimp only
  split
  · rename_i empty
    constructor
    · intro refused
      cases refused
    · intro plain
      exact absurd empty (full plain)
  · split
    · rename_i snapshot
      have dash := keeps _ (contains_mem (by decide : '-' ∈ "-SNAPSHOT".toList) snapshot)
      constructor
      · intro refused
        cases refused
      · intro plain
        exact absurd dash (unsigned_of_versionText plain).2
    · split
      · rename_i suffixed
        constructor
        · intro refused
          cases refused
        · intro plain
          obtain ⟨c, among, sign⟩ := List.any_eq_true.mp suffixed
          rw [Bool.or_eq_true, decide_eq_true_iff, decide_eq_true_iff] at sign
          obtain rfl | rfl := sign
          · exact absurd among (unsigned_of_versionText plain).2
          · exact absurd among (unsigned_of_versionText plain).1
      · rename_i unsuffixed
        have unsigned : '+' ∉ (trim raw).toList := fun among =>
          unsuffixed (List.any_eq_true.mpr ⟨'+', among, by decide⟩)
        rw [← fromStr_unsigned_iff unsigned]
        cases SemVer.fromStr (trim raw) with
        | none =>
            constructor
            · intro refused
              cases refused
            · intro read
              cases read
        | some other => simp

theorem display_fields (version : SemVer) : Fields '.' IsPart version.display.toList
    [version.major.toNat, version.minor.toNat, version.patch.toNat] := by
  have written (number : UInt32) : (toString number.toNat).toList = Nat.toDigits 10 number.toNat :=
    String.toList_ofList
  have part (number : UInt32) : IsPart (Nat.toDigits 10 number.toNat) number.toNat :=
    numeral_toDigits number.toNat_lt
  have shape : version.display.toList = Nat.toDigits 10 version.major.toNat ++
      '.' :: (Nat.toDigits 10 version.minor.toNat ++ '.' :: Nat.toDigits 10 version.patch.toNat) := by
    have dot : (toString ".").toList = ['.'] := rfl
    simp only [SemVer.display, String.toList_append, written, dot]
    simp
  rw [shape]
  exact .more (part version.major) (.more (part version.minor) (.last (part version.patch)))

theorem display_versionText (version : SemVer) : VersionText IsPart version.display.toList version := by
  refine ⟨_, _, .inl rfl, display_fields version, ?_⟩
  simp [versionOf]

theorem trim_display (version : SemVer) : trim version.display = version.display := by
  have solid : ∀ c ∈ version.display.toList, isWhiteSpace c = false :=
    (display_fields version).forall_mem (fun c => isWhiteSpace c = false) (by decide)
      fun _ _ numeral c among => solid_of_digit (numeral.digit c among)
  rw [trim, (trimmed_of_solid solid).trimChars_eq, String.ofList_toList]

/-- The two readers part where a number carries a plus sign. -/
theorem signedVersion_iff (text : String) :
    (∀ version, SemVer.fromStr text = some version ↔ VersionText IsPart text.toList version) ↔
      ¬SignedVersion text.toList := by
  constructor
  · rintro same ⟨sign, version, signed⟩
    have plain := (same version).mp ((fromStr_iff text version).mpr signed)
    exact (unsigned_of_versionText plain).1 sign
  · intro unsigned version
    by_cases sign : '+' ∈ text.toList
    · have refused : ¬VersionText IsSignedPart text.toList version :=
        fun signed => unsigned ⟨sign, version, signed⟩
      constructor
      · intro read
        exact absurd ((fromStr_iff text version).mp read) refused
      · intro plain
        exact absurd (versionText_signed plain) refused
    · exact fromStr_unsigned_iff sign version

/-- Both readers give back what is displayed, and the reader of a document takes exactly the
version texts; the reader of a request does on those in which no number carries a plus sign. -/
theorem versions_read_alike_iff
    (keeps : ∀ text, '-' ∈ (toUppercase text).toList → '-' ∈ text.toList) :
    (∀ version : SemVer,
      SemVer.parseSpecVersion toUppercase toLowercase version.display = .ok version ∧
        SemVer.fromStr version.display = some version) ∧
      ∀ raw : String,
        (∀ version, SemVer.parseSpecVersion toUppercase toLowercase raw = .ok version ↔
          VersionText IsPart (trim raw).toList version) ∧
        ((∀ version, SemVer.fromStr (trim raw) = some version ↔
            VersionText IsPart (trim raw).toList version) ↔
          ¬SignedVersion (trim raw).toList) := by
  refine ⟨fun version => ⟨?_, ?_⟩, fun raw => ⟨parseSpecVersion_iff keeps raw, signedVersion_iff _⟩⟩
  · rw [parseSpecVersion_iff keeps, trim_display]
    exact display_versionText version
  · exact (fromStr_iff _ _).mpr (versionText_signed (display_versionText version))

/-- Upper case as the platform has it on ASCII. -/
def asciiUppercase (text : String) : String := (Document.asciiPlatform {}).toUppercase text

theorem asciiUppercase_keeps (text : String) (among : '-' ∈ (asciiUppercase text).toList) :
    '-' ∈ text.toList := by
  obtain ⟨c, held, upper⟩ : ∃ c ∈ text.toList, c.toUpper = '-' := by
    simpa [asciiUppercase, Document.asciiPlatform] using among
  have same : c = '-' := by
    unfold Char.toUpper at upper
    split at upper
    · rename_i lower
      have code : (c.val + ('A'.val - 'a'.val)).toNat = 45 := congrArg (fun c => c.val.toNat) upper
      have least : 97 ≤ c.val.toNat := UInt32.le_iff_toNat_le.mp lower.1
      have most : c.val.toNat ≤ 122 := UInt32.le_iff_toNat_le.mp lower.2
      have shift : ('A'.val - 'a'.val).toNat = 2 ^ 32 - 32 := by decide
      rw [UInt32.toNat_add, shift] at code
      omega
    · exact upper
  exact same ▸ held

theorem versions_read_alike_signed :
    (SemVer.parseSpecVersion asciiUppercase id "1.2.0" = .ok ⟨1, 2, 0⟩ ∧
      SemVer.fromStr "1.2.0" = some ⟨1, 2, 0⟩) ∧
      VersionText IsPart (trim " v1.02").toList ⟨1, 2, 0⟩ ∧
      ¬∀ version, SemVer.fromStr (trim "v+1.2") = some version ↔
        VersionText IsPart (trim "v+1.2").toList version := by
  obtain ⟨shown, alike⟩ := @versions_read_alike_iff asciiUppercase id asciiUppercase_keeps
  have read : SemVer.fromStr (trim "v+1.2") = some ⟨1, 2, 0⟩ := by decide +kernel
  have signed : SignedVersion (trim "v+1.2").toList :=
    ⟨by decide +kernel, _, (fromStr_iff _ _).mp read⟩
  refine ⟨shown ⟨1, 2, 0⟩, ?_, fun same => (alike "v+1.2").2.mp same signed⟩
  exact ((alike " v1.02").1 _).mp (by decide +kernel)

/-- A pin with a plus sign is taken where the same text in a document is refused. -/
theorem signed_pin_is_taken :
    SemVer.fromStr (trim "+1.2.3") = some ⟨1, 2, 3⟩ ∧
      (∀ version, SemVer.parseSpecVersion asciiUppercase id "+1.2.3" ≠ .ok version) ∧
      ¬∃ version, VersionText IsPart (trim "+1.2.3").toList version := by
  have sign : '+' ∈ (trim "+1.2.3").toList := by decide +kernel
  have refused (version : SemVer) (plain : VersionText IsPart (trim "+1.2.3").toList version) : False :=
    (unsigned_of_versionText plain).1 sign
  refine ⟨by decide +kernel, fun version read => ?_, fun accepted => accepted.elim refused⟩
  exact refused version ((parseSpecVersion_iff asciiUppercase_keeps _ _).mp read)

end Readers
end Sanshain.Guarantees
