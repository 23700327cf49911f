import BlobLifecycle.FileTree
import BlobLifecycle.Text.Digits
import BlobLifecycle.Uuid

/-! Identifiers as names. The text of an identifier gives back its bytes, and it stands for one
component of a path, so that joining it to a path leads to a place right below. -/
namespace BlobLifecycle

def lowerDigits : List Char := "0123456789abcdef".toList

theorem hexDigit_mem {n : Nat} (small : n < 16) : hexDigit n ∈ lowerDigits := by
  have each : ∀ i : Fin 16, hexDigit i ∈ lowerDigits := by decide
  exact each ⟨n, small⟩

theorem value?_hexDigit {n : Nat} (small : n < 16) : Digits.value? (hexDigit n) = some n := by
  have each : ∀ i : Fin 16, Digits.value? (hexDigit i) = some i.val := by decide
  exact each ⟨n, small⟩

theorem hexDigits_append (front back : Bytes) :
    hexDigits (front ++ back) = hexDigits front ++ hexDigits back := List.flatMap_append

@[simp] theorem length_hexDigits (bytes : Bytes) : (hexDigits bytes).length = 2 * bytes.length := by
  induction bytes with
  | nil => rfl
  | cons b rest ih =>
    rw [hexDigits, List.flatMap_cons, List.length_append, ← hexDigits, ih, List.length_cons]
    simp only [List.length_cons, List.length_nil]
    omega

theorem mem_hexDigits {bytes : Bytes} {c : Char} (member : c ∈ hexDigits bytes) :
    c ∈ lowerDigits := by
  obtain ⟨b, -, member⟩ := List.mem_flatMap.1 member
  have range : b.toNat < 256 := b.toNat_lt
  simp only [List.mem_cons, List.not_mem_nil, or_false] at member
  rcases member with rfl | rfl
  · exact hexDigit_mem (by omega)
  · exact hexDigit_mem (by omega)

/-- The digits are read back as the bytes that they were written for. -/
theorem pairs?_hexDigits (bytes : Bytes) : Digits.pairs? (hexDigits bytes) = some bytes := by
  induction bytes with
  | nil => rfl
  | cons b rest ih =>
    have range : b.toNat < 256 := b.toNat_lt
    have high := value?_hexDigit (n := b.toNat / 16) (by omega)
    have low := value?_hexDigit (n := b.toNat % 16) (by omega)
    have whole : b.toNat / 16 * 16 + b.toNat % 16 = b.toNat := Nat.div_add_mod' ..
    have byte : UInt8.ofNat (b.toNat / 16 * 16 + b.toNat % 16) = b := by rw [whole, UInt8.ofNat_toNat]
    show Digits.pairs? (hexDigit _ :: hexDigit _ :: hexDigits rest) = _
    simp only [Digits.pairs?, high, low, ih, Option.bind_eq_bind, Option.bind_some, byte]
    rfl

namespace Uuid

variable {bytes : Bytes} {name : String}

/-- What the text of an identifier is made of. -/
structure Names (bytes : Bytes) (name : String) : Prop where
  whole : bytes.length = 16
  length : name.length = 36
  digits : ∀ c ∈ name.toList, c ∈ lowerDigits ∨ c = '-'
  /-- Without its hyphens the text has the digits of the bytes. -/
  plain : name.toList.filter (· ≠ '-') = hexDigits bytes

theorem filter_hexDigits (bytes : Bytes) : (hexDigits bytes).filter (· ≠ '-') = hexDigits bytes := by
  refine List.filter_eq_self.2 fun c member => decide_eq_true ?_
  rintro rfl
  exact absurd (mem_hexDigits member) (by decide)

/-- The groups of sixteen bytes, written one after another. -/
theorem text?_groups (whole : bytes.length = 16) : ∃ a b c d e : Bytes,
    bytes = a ++ (b ++ (c ++ (d ++ e))) ∧
      text? bytes = some (String.ofList (hexDigits a ++ '-' :: hexDigits b ++ '-' :: hexDigits c ++
        '-' :: hexDigits d ++ '-' :: hexDigits e)) := by
  refine ⟨(bytes.drop 0).take 4, (bytes.drop 4).take 2, (bytes.drop 6).take 2,
    (bytes.drop 8).take 2, (bytes.drop 10).take 6, ?_, ?_⟩
  · have rest (start count : Nat) :
        bytes.drop start = (bytes.drop start).take count ++ bytes.drop (start + count) := by
      rw [← List.drop_drop, List.take_append_drop]
    have last : (bytes.drop 10).take 6 = bytes.drop 10 :=
      List.take_of_length_le (by simp [whole])
    rw [last, ← rest 8 2, ← rest 6 2, ← rest 4 2, ← rest 0 4, List.drop_zero]
  · rw [text?, if_pos whole]

theorem names_of_text? (told : text? bytes = some name) : Names bytes name := by
  have whole : bytes.length = 16 := by
    unfold text? at told
    split at told
    · assumption
    · cases told
  obtain ⟨a, b, c, d, e, rfl, text⟩ := text?_groups whole
  obtain rfl := Option.some.inj (told.symm.trans text)
  refine ⟨whole, ?_, fun x member => ?_, ?_⟩
  · simp only [List.length_append] at whole
    simp only [String.length_ofList, List.length_append, List.length_cons, length_hexDigits]
    omega
  · simp only [String.toList_ofList, List.mem_append, List.mem_cons] at member
    have digits {group : Bytes} (here : x ∈ hexDigits group) := mem_hexDigits here
    grind
  · have hyphen (rest : List Char) : ('-' :: rest).filter (· ≠ '-') = rest.filter (· ≠ '-') := rfl
    simp only [String.toList_ofList, List.filter_append, filter_hexDigits, hyphen, hexDigits_append,
      List.append_assoc]

theorem text?_isSome : (text? bytes).isSome = true ↔ bytes.length = 16 := by
  unfold text?
  split <;> simp [*]

/-- Different bytes have different texts. -/
theorem Names.unique {bytes' : Bytes} (names : Names bytes name) (names' : Names bytes' name) :
    bytes' = bytes := by
  have same := (pairs?_hexDigits bytes').symm.trans
    (congrArg Digits.pairs? (names'.plain.symm.trans names.plain))
  exact Option.some.inj (same.trans (pairs?_hexDigits bytes))

end Uuid

namespace Path

theorem components_slash (front back : List Char) :
    components (String.ofList (front ++ '/' :: back)) =
      components (String.ofList front) ++ components (String.ofList back) := by
  have split : (front ++ '/' :: back).splitOn '/' = front.splitOn '/' ++ back.splitOn '/' :=
    List.splitOnP_append_cons front back (beq_self_eq_true '/')
  simp only [components, String.toList_ofList, split, List.map_append, List.filter_append]

/-- A relative path that is joined to another one goes on from where that leads. -/
theorem components_join {base component : String} (relative : component.toList.head? ≠ some '/') :
    components (join base component) = components base ++ components component := by
  have text (s : String) : String.ofList s.toList = s := String.ofList_toList
  unfold join
  rw [if_neg relative]
  split
  · next bare =>
    rcases bare with rfl | slash
    · have nothing : components "" = [] := by decide
      rw [String.empty_append, nothing, List.nil_append]
    · obtain ⟨front, ends⟩ := List.getLast?_eq_some_iff.1 slash
      have whole : base ++ component = String.ofList (front ++ '/' :: component.toList) := by
        rw [← text (base ++ component), String.toList_append, ends, List.append_assoc]
        rfl
      have closed : base = String.ofList (front ++ ['/']) := by rw [← ends, text]
      have nothing : components (String.ofList []) = [] := by decide
      rw [whole, components_slash, text, closed, components_slash, nothing, List.append_nil]
  · have whole : base ++ "/" ++ component = String.ofList (base.toList ++ '/' :: component.toList) := by
      rw [← text (base ++ "/" ++ component), String.toList_append, String.toList_append,
        List.append_assoc]
      rfl
    rw [whole, components_slash, text, text]

/-- A text without slashes is one component, unless it is empty or a dot. -/
theorem components_single {name : String} (single : '/' ∉ name.toList) (proper : name ≠ "" ∧ name ≠ ".") :
    components name = [name] := by
  rw [components, List.splitOn_eq_singleton single]
  simp [proper]

end Path

structure Path.IsName (name : String) : Prop where
  single : '/' ∉ name.toList
  proper : name ≠ "" ∧ name ≠ "." ∧ name ≠ ".."

/-- What is joined by a name stands right below. -/
theorem Place.ofPath_join {name : String} (isName : Path.IsName name) (base : String) :
    Place.ofPath (Path.join base name) = Place.ofPath base ++ [name] := by
  obtain ⟨single, filled, here, above⟩ := isName
  have relative : name.toList.head? ≠ some '/' := fun slash => single (List.mem_of_head? slash)
  rw [ofPath, ofPath, Path.components_join relative, Path.components_single single ⟨filled, here⟩,
    List.foldl_append]
  show Place.enter _ name = _
  rw [Place.enter, if_neg above]

theorem Uuid.Names.isName {bytes : Bytes} {name : String} (names : Uuid.Names bytes name) :
    Path.IsName name := by
  refine ⟨fun slash => ?_, ?_, ?_, ?_⟩
  · exact absurd (names.digits _ slash) (by decide)
  all_goals
    rintro rfl
    exact absurd names.length (by decide)

end BlobLifecycle
