import BlobLifecycle.Proofs.Decimals
import BlobLifecycle.Proofs.Layering

/-! Variables at face value: what is loaded for a text that the environment gives. -/
namespace BlobLifecycle

namespace Settings.RawValue

theorem ofText_signed {n : Int} (least : Word.least ≤ n) (greatest : n ≤ Word.greatest) :
    ofText (toString n) = .integer n := by
  have numeral := Decimal.numeral_toString n
  unfold ofText
  split
  · next word => exact absurd word (Decimal.numeral_not_word numeral (by decide))
  · next word => exact absurd word (Decimal.numeral_not_word numeral (by decide))
  · rw [Decimal.integer_toString least greatest]

theorem ofText_large {n : Nat} (least : 2 ^ 63 ≤ n) (greatest : n < 2 ^ 64) :
    ofText (toString n) = .float (.ofFraction false n 1) := by
  have text : (toString n).toList = Nat.toDigits 10 n := by
    rw [Nat.toString_eq_ofList_toDigits, String.toList_ofList]
  have refused : Decimal.integer? Word.least Word.greatest (Nat.toDigits 10 n) = none := by
    rw [Option.eq_none_iff_forall_ne_some]
    intro m read
    obtain ⟨k, digits, rfl, -, within⟩ := Decimal.integer_eq_some.1 read
    rw [Decimal.splitSign_toDigits, Digits.natural_toDigits] at *
    cases digits
    simp [Word.greatest] at within
    omega
  have numeral := Decimal.numeral_toDigits n
  unfold ofText
  rw [text]
  split
  · next word => exact absurd word (Decimal.numeral_not_word numeral (by decide))
  · next word => exact absurd word (Decimal.numeral_not_word numeral (by decide))
  · rw [refused, Decimal.float_toDigits greatest]

/-- Texts that are shown as they are given: truth words in small letters, whole numbers as they are
written, other numbers in their shortest form, and all that is neither. -/
structure Verbatim (text : String) : Prop where
  word : ∀ word ∈ ["true", "false"], String.ofList (Decimal.lower text.toList) = word → text = word
  whole : ∀ n, Decimal.integer? Word.least Word.greatest text.toList = some n →
    Decimal.Canonical text.toList
  number : ∀ x, Decimal.integer? Word.least Word.greatest text.toList = none →
    Decimal.float? text.toList = some x → text = Decimal.floatText x

theorem verbatim_of_word {text : String} (word : text ∈ ["true", "false"]) : Verbatim text := by
  have unread : Decimal.integer? Word.least Word.greatest text.toList = none ∧
      Decimal.float? text.toList = none := by
    simp only [List.mem_cons, List.not_mem_nil, or_false] at word
    rcases word with rfl | rfl <;> decide +kernel
  refine ⟨fun other listed same => ?_, by simp [unread.1], by simp [unread.2]⟩
  simp only [List.mem_cons, List.not_mem_nil, or_false] at word listed
  rcases word with rfl | rfl <;> rcases listed with rfl | rfl <;> revert same <;> decide +kernel

/-- A text is always shown as some text, which is the same if it is verbatim. -/
theorem toText_ofText (text : String) :
    ∃ shown, (ofText text).toText? = some shown ∧ (shown = text ↔ Verbatim text) := by
  unfold ofText
  split
  · next word =>
    exact ⟨"true", rfl, fun same => verbatim_of_word (by simp [← same]),
      fun verbatim => (verbatim.word _ (by simp) word).symm⟩
  · next word =>
    exact ⟨"false", rfl, fun same => verbatim_of_word (by simp [← same]),
      fun verbatim => (verbatim.word _ (by simp) word).symm⟩
  · next notTrue notFalse =>
    have word : ∀ word ∈ ["true", "false"], String.ofList (Decimal.lower text.toList) = word →
        text = word := by
      simpa using ⟨fun same => absurd same notTrue, fun same => absurd same notFalse⟩
    split
    · next n read =>
      have written : toString n = text ↔ Decimal.Canonical text.toList := by
        rw [Decimal.canonical_iff read, String.toList_inj, eq_comm]
      exact ⟨toString n, rfl, fun same => ⟨word, fun _ _ => written.1 same, by simp [read]⟩,
        fun verbatim => written.2 (verbatim.whole n read)⟩
    · next refused =>
      split
      · next x read =>
        have number : Decimal.floatText x = text ↔ ∀ y, Decimal.integer? Word.least Word.greatest
            text.toList = none → Decimal.float? text.toList = some y →
            text = Decimal.floatText y := by
          simp [refused, read, eq_comm]
        exact ⟨Decimal.floatText x, rfl, fun same => ⟨word, by simp [refused], number.1 same⟩,
          fun verbatim => number.2 verbatim.number⟩
      · next unread =>
        exact ⟨text, rfl, fun _ => ⟨word, by simp [refused], by simp [unread]⟩, fun _ => rfl⟩

/-- A character that no number and no truth word has keeps a text as it is, as every separator of a
path does. -/
theorem verbatim_of_foreign {text : String} {c : Char} (held : c ∈ text.toList)
    (foreign : ¬Decimal.IsNumberChar c) : Verbatim text where
  word word listed same := by
    have letters : ∀ word ∈ ["true", "false"], word.toList.all Char.isAlphanum = true := by decide
    exact absurd (Decimal.numberChars_lower same (letters word listed) c held) foreign
  whole _ read := absurd (Decimal.numberChars_integer read c held) foreign
  number _ _ read := absurd (Decimal.numberChars_float read c held) foreign

end Settings.RawValue

namespace Settings

/-- An unsigned word is read as the nearest number that its reading has room for: exactly if the
first of its bits is not set, it is one of those 2048 apart or the greatest of all. -/
theorem toUnsigned_ofText {n : Nat} (greatest : n ≤ Word.greatestUnsigned) :
    ∃ m : Nat, (RawValue.ofText (toString n)).toUnsigned? = some m ∧ m ≤ n + 1024 ∧ n ≤ m + 1024 ∧
      (m = n ↔ n ≤ Word.greatest ∨ 2048 ∣ n ∨ n = Word.greatestUnsigned) := by
  by_cases small : n ≤ Word.greatest
  · have read : RawValue.ofText (toString n) = .integer n :=
      RawValue.ofText_signed (n := n) (by unfold Word.least; omega) small
    have converted : (RawValue.integer n).toUnsigned? = some n := by
      simp [RawValue.toUnsigned?, RawValue.toInteger?, greatest]
    exact ⟨n, read ▸ converted, by simp [small]⟩
  · have large : 2 ^ 63 ≤ n := by
      unfold Word.greatest at small
      omega
    have within : n < 2 ^ 64 := by
      unfold Word.greatestUnsigned at greatest
      omega
    obtain ⟨m, rounded, above, below, exact_iff⟩ := Binary64.nearest_large large within
    have converted : (RawValue.float (.ofFraction false n 1)).toUnsigned? = some m := by
      simp [RawValue.toUnsigned?, RawValue.toInteger?, rounded]
    refine ⟨m, RawValue.ofText_large large within ▸ converted, above, below, ?_⟩
    rw [exact_iff, or_iff_right small]

def Key.IsTouched (key : Key) (name : String) : Prop :=
  ∃ rest, Layer.lowerName name.toList = Layer.variableStart ++ rest ∧
    (rest = key.name.toList ∨ key.HasPart rest)

def SameBut (key : Key) (s s' : Settings) : Prop :=
  ∀ other, other ≠ key → s.value other = s'.value other

section

variable {defaults s₀ : Settings} {file : Option SettingsFile} {environment : List (String × Bytes)}
  {before after : List (String × Bytes)} {name given text : String} {key : Key}

theorem Layer.not_mem_ofVariables (alone : ∀ entry ∈ environment, ¬key.IsTouched entry.1)
    (v : RawValue) : (key, v) ∉ Layer.ofVariables environment := by
  intro held
  obtain ⟨entry, here, rest, text, lowered, -, entered⟩ := Layer.mem_ofVariables.1 held
  exact alone entry here ⟨rest, lowered, (Layer.entry_some entered).imp_left And.left⟩

theorem Layer.ofVariables_split (named : key.IsNamed name) (text : String) :
    Layer.ofVariables (before ++ (name, utf8 text) :: after) =
      Layer.ofVariables before ++ (key, .ofText text) :: Layer.ofVariables after := by
  have read : Layer.readVariable? (name, utf8 text) = some (some (key.name.toList, text)) := by
    simp [Layer.readVariable?, Layer.variableName?_eq_some.2 named]
  simp [Layer.ofVariables, read, Layer.entry_name]

theorem Layer.get?_between {front back : Layer} {v : RawValue} (first : ∀ v, (key, v) ∉ front)
    (last : ∀ v, (key, v) ∉ back) : (front ++ (key, v) :: back).get? key = some v := by
  apply Layer.get?_eq
  simp [first, last, eq_comm]

theorem Layer.get?_beside {front back : Layer} {v : RawValue} {other : Key} (apart : other ≠ key) :
    (front ++ (key, v) :: back).get? other = (front ++ back).get? other := by
  have unlike : (other == key) = false := by simpa using apart
  simp [Layer.get?, List.lookup_append, List.lookup_cons, unlike]

theorem loadOver_eq_ok_iff {s : Settings} : loadOver defaults file environment = .ok s ↔
    ∃ fileLayer environmentLayer, (file.map SettingsFile.layer?).getD (some []) = some fileLayer ∧
      Layer.ofEnvironment? environment = some environmentLayer ∧
      ofLayers? [environmentLayer, fileLayer, .ofSettings defaults] = some s := by
  unfold loadOver
  dsimp only
  constructor
  · intro loaded
    split at loaded
    · next fileLayer environmentLayer fileRead environmentRead =>
      split at loaded
      · next s' built =>
        cases loaded
        exact ⟨fileLayer, environmentLayer, fileRead, environmentRead, built⟩
      · cases loaded
    · cases loaded
  · rintro ⟨fileLayer, environmentLayer, fileRead, environmentRead, built⟩
    simp only [fileRead, environmentRead, built]

theorem ofLayers_replaced {front back : Layer} {lower : List Layer} {v v' w : RawValue}
    (first : ∀ v, (key, v) ∉ front) (last : ∀ v, (key, v) ∉ back)
    (built : ofLayers? ((front ++ (key, v) :: back) :: lower) = some s₀)
    (converts : key.convert? v' = some w) :
    ∃ s, ofLayers? ((front ++ (key, v') :: back) :: lower) = some s ∧
      s.SameBut key s₀ ∧ s.value key = w := by
  have here : highest? ((front ++ (key, v') :: back) :: lower) key = some v' := by
    simp [highest?, Layer.get?_between first last]
  have others : ∀ other, other ≠ key →
      (highest? ((front ++ (key, v') :: back) :: lower) other).bind other.convert? =
        some (s₀.value other) := by
    intro other apart
    have converted := ofLayers_eq_some.1 built other
    simp only [highest?, List.findSome?, Layer.get?_beside apart] at converted ⊢
    exact converted
  have built' : (ofLayers? ((front ++ (key, v') :: back) :: lower)).isSome := by
    rw [ofLayers_isSome]
    intro other
    by_cases same : other = key
    · simp [same, here, converts]
    · simp [others other same]
  obtain ⟨s, built'⟩ := Option.isSome_iff_exists.1 built'
  have converted := ofLayers_eq_some.1 built'
  refine ⟨s, built', fun other apart => ?_, ?_⟩
  · exact Option.some.inj ((converted other).symm.trans (others other apart))
  · have value := converted key
    rw [here, Option.bind_some, converts] at value
    exact (Option.some.inj value).symm

/-- What loads with one text of a variable loads with any other that converts, and the other
settings stay as they are. -/
theorem loads_replaced (named : key.IsNamed name)
    (alone : ∀ entry ∈ before ++ after, ¬key.IsTouched entry.1)
    (loads : loadOver defaults file (before ++ (name, utf8 given) :: after) = .ok s₀) {w : RawValue}
    (converts : key.convert? (.ofText text) = some w) :
    ∃ s, loadOver defaults file (before ++ (name, utf8 text) :: after) = .ok s ∧
      s.SameBut key s₀ ∧ s.value key = w := by
  obtain ⟨fileLayer, environmentLayer, fileRead, environmentRead, built⟩ :=
    loadOver_eq_ok_iff.1 loads
  obtain ⟨each, rfl⟩ := Layer.ofEnvironment_eq_some.1 environmentRead
  have first := Layer.not_mem_ofVariables fun entry held =>
    alone entry (List.mem_append_left _ held)
  have last := Layer.not_mem_ofVariables fun entry held =>
    alone entry (List.mem_append_right _ held)
  rw [Layer.ofVariables_split named] at built
  obtain ⟨s, built', replaced⟩ := ofLayers_replaced first last built converts
  refine ⟨s, loadOver_eq_ok_iff.2 ⟨fileLayer, _, fileRead,
    Layer.ofEnvironment_eq_some.2 ⟨?_, Layer.ofVariables_split named text⟩, built'⟩, replaced⟩
  intro entry held starts
  rcases List.mem_append.1 held with early | late
  · exact each entry (List.mem_append_left _ early) starts
  · rcases List.mem_cons.1 late with rfl | late
    · simp
    · exact each entry (List.mem_append_right _ (List.mem_cons_of_mem _ late)) starts

/-- Every text is loaded as a path as it is if it is verbatim and never otherwise, every signed word
as it is, and an unsigned word with the precision that its first bit leaves. -/
theorem variables_at_face_value (named : key.IsNamed name)
    (alone : ∀ entry ∈ before ++ after, ¬key.IsTouched entry.1)
    (loads : loadOver defaults file (before ++ (name, utf8 given) :: after) = .ok s₀)
    (text : String) :
    let loaded := loadOver defaults file (before ++ (name, utf8 text) :: after)
    (key.kind = .text → ∃ s, loaded = .ok s ∧ s.SameBut key s₀ ∧
      (s.value key = .text text ↔ RawValue.Verbatim text)) ∧
    (key.kind = .signed → ∀ n : Int, Word.least ≤ n → n ≤ Word.greatest → text = toString n →
      ∃ s, loaded = .ok s ∧ s.SameBut key s₀ ∧ s.value key = .integer n) ∧
    (key.kind = .unsigned → ∀ n : Nat, n ≤ Word.greatestUnsigned → text = toString n →
      ∃ s, loaded = .ok s ∧ s.SameBut key s₀ ∧ ∃ m : Nat, s.value key = .integer m ∧
        m ≤ n + 1024 ∧ n ≤ m + 1024 ∧
        (m = n ↔ n ≤ Word.greatest ∨ 2048 ∣ n ∨ n = Word.greatestUnsigned)) := by
  refine ⟨fun kind => ?_, fun kind n least greatest same => ?_, fun kind n greatest same => ?_⟩
  · obtain ⟨shown, converted, exact_iff⟩ := RawValue.toText_ofText text
    have converts : key.convert? (.ofText text) = some (.text shown) := by
      simp [Key.convert?, kind, converted]
    obtain ⟨s, loaded, others, value⟩ := loads_replaced named alone loads converts
    exact ⟨s, loaded, others, by simp [value, exact_iff]⟩
  · have converts : key.convert? (.ofText text) = some (.integer n) := by
      rw [same, RawValue.ofText_signed least greatest]
      simp [Key.convert?, kind, RawValue.toSigned?, RawValue.toInteger?, least, greatest]
    exact loads_replaced named alone loads converts
  · obtain ⟨m, converted, near⟩ := toUnsigned_ofText greatest
    have converts : key.convert? (.ofText text) = some (.integer m) := by
      rw [← same] at converted
      simp [Key.convert?, kind, converted]
    obtain ⟨s, loaded, others, value⟩ := loads_replaced named alone loads converts
    exact ⟨s, loaded, others, m, value, near⟩

end

theorem Key.not_isTouched {key : Key} {name : String} (foreign : ¬key.IsNamed name)
    (bare : (Layer.lowerName name.toList).all Layer.isNameChar = true) : ¬key.IsTouched name := by
  rintro ⟨rest, lowered, same | part⟩
  · exact foreign (lowered.trans (by rw [same]))
  · exact Layer.not_hasPart_of_bare bare lowered key part

namespace Sample

/-- Variables that have nothing to do with the one that is looked at. -/
def others : List (String × Bytes) := [("HOME", [0xff]), ("BLOBVAULT_SWEEP_BATCH_SIZE", utf8 "7")]

theorem others_apart {key : Key} (apart : key ≠ .batchSize) :
    ∀ entry ∈ [] ++ others, ¬key.IsTouched entry.1 := by
  intro entry held
  have foreign : ∀ entry ∈ others, ¬key.IsNamed entry.1 := by
    revert key
    decide +kernel
  have bare : ∀ entry ∈ others, (Layer.lowerName entry.1.toList).all Layer.isNameChar = true := by
    decide +kernel
  exact Key.not_isTouched (foreign entry held) (bare entry held)

def loaded (name text : String) : Except LoadFault Settings :=
  loadOver (.defaults "/data") none ([] ++ (name, utf8 text) :: others)

end Sample

/-- A path with a separator, the least grace interval and a number among those 2048 apart. -/
theorem given_variables_kept :
    (∃ s, Sample.loaded "BlobVault_Database_Path" "/srv/007" = .ok s ∧
      s.value .databasePath = .text "/srv/007") ∧
    (∃ s, Sample.loaded "BLOBVAULT_GRACE_INTERVAL_MS" (toString Word.least) = .ok s ∧
      s.value .graceInterval = .integer Word.least) ∧
    (∃ s, Sample.loaded "BLOBVAULT_SWEEP_INTERVAL_MS" (toString 18446744073709549568) = .ok s ∧
      s.value .sweepInterval = .integer 18446744073709549568) := by
  refine ⟨?_, ?_, ?_⟩
  · have named : Key.databasePath.IsNamed "BlobVault_Database_Path" := by decide +kernel
    have loads : Sample.loaded "BlobVault_Database_Path" "0" =
        .ok { Settings.defaults "/data" with databasePath := "0", batchSize := 7 } := by
      decide +kernel
    obtain ⟨s, loaded, -, kept⟩ := (variables_at_face_value named (Sample.others_apart (by decide))
      loads "/srv/007").1 rfl
    exact ⟨s, loaded, kept.2 (RawValue.verbatim_of_foreign (c := '/') (by decide) (by decide))⟩
  · have named : Key.graceInterval.IsNamed "BLOBVAULT_GRACE_INTERVAL_MS" := by decide +kernel
    have loads : Sample.loaded "BLOBVAULT_GRACE_INTERVAL_MS" "0" =
        .ok { Settings.defaults "/data" with graceInterval := 0, batchSize := 7 } := by
      decide +kernel
    obtain ⟨s, loaded, -, value⟩ := (variables_at_face_value named (Sample.others_apart (by decide))
      loads (toString Word.least)).2.1 rfl Word.least (by decide) (by decide) rfl
    exact ⟨s, loaded, value⟩
  · have named : Key.sweepInterval.IsNamed "BLOBVAULT_SWEEP_INTERVAL_MS" := by decide +kernel
    have loads : Sample.loaded "BLOBVAULT_SWEEP_INTERVAL_MS" "0" =
        .ok { Settings.defaults "/data" with sweepInterval := 0, batchSize := 7 } := by
      decide +kernel
    obtain ⟨s, loaded, -, m, value, -, -, kept⟩ := (variables_at_face_value named
      (Sample.others_apart (by decide)) loads (toString 18446744073709549568)).2.2 rfl
      18446744073709549568 (by decide) rfl
    rw [kept.2 (.inr (.inl (by decide)))] at value
    exact ⟨s, loaded, value⟩

/-- A path of digits is loaded as the number that it spells, and an unsigned word as a neighbour. -/
theorem respelled_path_loaded :
    loadOver (.defaults "/data") none [("BLOBVAULT_DATABASE_PATH", utf8 "007")] =
      .ok { Settings.defaults "/data" with databasePath := "7" } ∧
    loadOver (.defaults "/data") none
        [("BLOBVAULT_SWEEP_INTERVAL_MS", utf8 "9223372036854775809")] =
      .ok { Settings.defaults "/data" with sweepInterval := 9223372036854775808 } := by
  constructor <;> decide +kernel

end Settings

end BlobLifecycle
