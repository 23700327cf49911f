import BlobLifecycle.Handle.Encoding
import BlobLifecycle.Proofs.Words

/-! Which byte strings are handles. A handle may be spelled in many ways, since numerals may; each
spelling ends where it says, and the written form is the shortest. -/
namespace BlobLifecycle

theorem bind_eq_ok_iff {x : Except ε α} {f : α → Except ε β} {b : β} :
    x >>= f = .ok b ↔ ∃ a, x = .ok a ∧ f a = .ok b := by
  cases x with
  | ok a => simp [bind, Except.bind]
  | error e => simp [bind, Except.bind]

namespace Handle

open Varint

/-- Bytes behind a numeral of their length. -/
inductive Block : Bytes → Bytes → Prop
  | behind {length content : Bytes} (told : Numeral maxGroups length content.length) :
      Block (length ++ content) content

def Fits (h : Handle) : Prop :=
  match h.tier with
  | .inline => h.locator.length = h.size
  | .medium | .large => h.locator ≠ []

/-- The bytes are a tag, a size and three blocks, which are the parts of this handle, and nothing
stands after them. -/
inductive Spelling : Bytes → Handle → Prop
  | parts {h : Handle} {size mediaType displayName locator : Bytes}
      (sized : Numeral maxGroups size h.size) (range : h.size < sizeLimit)
      (typed : Block mediaType (utf8 h.mediaType)) (named : Block displayName (utf8 h.displayName))
      (located : Block locator h.locator) (fits : h.Fits) :
      Spelling (h.tier.tag :: (size ++ mediaType ++ displayName ++ locator)) h

theorem readNumber_reads : Reads readNumber (Numeral maxGroups) := by
  intro bytes n rest
  rw [readNumber]
  constructor
  · intro done
    cases result : Varint.read bytes with
    | error failure => simp [result] at done
    | ok found =>
      obtain ⟨word, back⟩ := found
      simp only [result, Except.ok.injEq, Prod.mk.injEq] at done
      obtain ⟨rfl, rfl⟩ := done
      exact (read_reads bytes word back).1 result
  · rintro ⟨front, rfl, numeral⟩
    have whole : (UInt64.ofNat n).toNat = n := UInt64.toNat_ofNat_of_lt' numeral.word
    have spelled : Numeral maxGroups front (UInt64.ofNat n).toNat := whole.symm ▸ numeral
    simp only [read_reads.append spelled rest, whole]

theorem readTier_reads : Reads readTier fun bytes tier => bytes = [tier.tag] := by
  intro bytes tier rest
  cases bytes with
  | nil => simp [readTier]
  | cons tag tail =>
    have front : (∃ front, tag :: tail = front ++ rest ∧ front = [tier.tag]) ↔
        tag = tier.tag ∧ tail = rest := by simp
    rw [readTier, front]
    cases known : Tier.ofTag? tag with
    | none =>
      simp only [reduceCtorEq, false_iff, not_and]
      rintro rfl
      simp at known
    | some found =>
      rw [← Tier.tag_of_ofTag? known]
      have same : found.tag = tier.tag ↔ found = tier :=
        ⟨fun same => Option.some.inj (by simpa using congrArg Tier.ofTag? same), congrArg Tier.tag⟩
      simp [same]

theorem readSize_reads :
    Reads readSize fun bytes n => Numeral maxGroups bytes n ∧ n < sizeLimit := by
  intro bytes n rest
  simp only [readSize, bind_eq_ok_iff, Prod.exists, readNumber_reads _ _ _]
  constructor
  · rintro ⟨m, tail, ⟨front, rfl, numeral⟩, kept⟩
    split at kept
    · next small =>
      cases kept
      exact ⟨front, rfl, numeral, small⟩
    · cases kept
  · rintro ⟨front, rfl, numeral, small⟩
    exact ⟨n, rest, ⟨front, rfl, numeral⟩, if_pos small⟩

theorem readBlock_reads : Reads readBlock Block := by
  intro bytes content rest
  simp only [readBlock, bind_eq_ok_iff, Prod.exists, readNumber_reads _ _ _]
  constructor
  · rintro ⟨length, tail, ⟨front, rfl, numeral⟩, kept⟩
    split at kept
    · next room =>
      cases kept
      refine ⟨front ++ tail.take length, by simp, .behind ?_⟩
      rwa [List.length_take, Nat.min_eq_left room]
    · cases kept
  · rintro ⟨-, rfl, ⟨told⟩⟩
    next front => exact ⟨content.length, content ++ rest, ⟨front, by simp, told⟩, by simp⟩

theorem readText_reads (part : TextPart) :
    Reads (readText part) fun bytes text => Block bytes (utf8 text) := by
  intro bytes text rest
  simp only [readText, bind_eq_ok_iff, Prod.exists, readBlock_reads _ _ _]
  constructor
  · rintro ⟨raw, tail, ⟨front, rfl, block⟩, kept⟩
    split at kept
    · next valid =>
      cases kept
      exact ⟨front, rfl, utf8_of_utf8? valid ▸ block⟩
    · cases kept
  · rintro ⟨front, rfl, block⟩
    exact ⟨utf8 text, rest, ⟨front, rfl, block⟩, by rw [utf8?_utf8]⟩

theorem check_eq_ok {h h' : Handle} : check h = .ok h' ↔ h = h' ∧ h.Fits := by
  obtain ⟨mediaType, size, displayName, tier, locator⟩ := h
  cases tier
  all_goals
    simp only [check, Fits]
    split <;> simp [*]

/-- What is spelled is read, and what stands after it is refused. -/
theorem Spelling.read_append {bytes : Bytes} {h : Handle} (spelling : Spelling bytes h)
    (extra : Bytes) :
    read (bytes ++ extra) = if extra = [] then .ok h else .error (.trailingBytes extra.length) := by
  obtain ⟨sized, range, typed, named, located, fits⟩ := spelling
  next size mediaType displayName locator =>
  have tier := readTier_reads.append (a := h.tier) rfl
    (size ++ (mediaType ++ (displayName ++ (locator ++ extra))))
  have size := readSize_reads.append ⟨sized, range⟩
    (mediaType ++ (displayName ++ (locator ++ extra)))
  have mediaType := (readText_reads .mediaType).append typed (displayName ++ (locator ++ extra))
  have displayName := (readText_reads .displayName).append named (locator ++ extra)
  have locator := readBlock_reads.append located extra
  have whole : check h = .ok h := check_eq_ok.2 ⟨rfl, fits⟩
  rw [List.singleton_append] at tier
  simp only [read, List.cons_append, List.append_assoc, tier, size, mediaType, displayName, locator,
    bind, Except.bind, whole]

theorem spelling_of_read {bytes : Bytes} {h : Handle} (accepted : read bytes = .ok h) :
    Spelling bytes h := by
  simp only [read, bind_eq_ok_iff, Prod.exists] at accepted
  obtain ⟨tier, _, first, size, _, sized, mediaType, _, typed, displayName, _, named, locator, rest,
    located, kept⟩ := accepted
  obtain ⟨-, rfl, rfl⟩ := (readTier_reads _ _ _).1 first
  obtain ⟨_, rfl, numeral, range⟩ := (readSize_reads _ _ _).1 sized
  obtain ⟨_, rfl, typeBlock⟩ := (readText_reads _ _ _ _).1 typed
  obtain ⟨_, rfl, nameBlock⟩ := (readText_reads _ _ _ _).1 named
  obtain ⟨_, rfl, locatorBlock⟩ := (readBlock_reads _ _ _).1 located
  split at kept
  · next ended =>
    obtain ⟨rfl, fits⟩ := check_eq_ok.1 kept
    rw [ended, List.append_nil, List.singleton_append, ← List.append_assoc, ← List.append_assoc]
    exact .parts numeral range typeBlock nameBlock locatorBlock fits
  · cases kept

theorem decode_of_ok {bytes : Bytes} {h : Handle} (accepted : read bytes = .ok h) :
    decode bytes = .ok h := by
  rw [decode, accepted]
  rfl

theorem decode_of_error {bytes : Bytes} {reason : Corruption} (refused : read bytes = .error reason) :
    decode bytes = .error (.corruptHandle reason) := by
  rw [decode, refused]
  rfl

theorem decode_eq_ok_iff {bytes : Bytes} {h : Handle} :
    decode bytes = .ok h ↔ Spelling bytes h := by
  constructor
  · intro accepted
    cases result : read bytes with
    | ok h' =>
      cases (decode_of_ok result).symm.trans accepted
      exact spelling_of_read result
    | error reason => cases (decode_of_error result).symm.trans accepted
  · intro spelling
    apply decode_of_ok
    simpa using spelling.read_append []

/-- Bytes that are not a handle are told to be corrupt. -/
theorem decode_refuses {bytes : Bytes} (refused : ∀ h, decode bytes ≠ .ok h) :
    ∃ reason, decode bytes = .error (.corruptHandle reason) := by
  cases result : read bytes with
  | ok h => exact absurd (decode_of_ok result) (refused h)
  | error reason => exact ⟨reason, decode_of_error result⟩

/-- Lengths are words, and the size is a signed one. -/
structure Addressable (h : Handle) : Prop where
  mediaType : (utf8 h.mediaType).length < wordLimit
  displayName : (utf8 h.displayName).length < wordLimit
  locator : h.locator.length < wordLimit
  size : h.size < sizeLimit

theorem Block.word {bytes content : Bytes} (block : Block bytes content) :
    content.length < wordLimit := by
  obtain ⟨told⟩ := block
  exact told.word

theorem Block.form {bytes content : Bytes} (block : Block bytes content) :
    FormOf (Handle.block content) bytes := by
  obtain ⟨told⟩ := block
  rw [Handle.block, write_ofNat told.word]
  exact told.form.append (.inl rfl)

theorem block_block {content : Bytes} (small : content.length < wordLimit) :
    Block (block content) content := by
  rw [block, write_ofNat small]
  exact .behind (word_numeral small)

namespace Spelling

variable {bytes : Bytes} {h : Handle}

theorem addressable (spelling : Spelling bytes h) : h.Addressable := by
  obtain ⟨-, range, typed, named, located, -⟩ := spelling
  exact ⟨typed.word, named.word, located.word, range⟩

theorem fits (spelling : Spelling bytes h) : h.Fits := by
  obtain ⟨-, -, -, -, -, fits⟩ := spelling
  exact fits

/-- The written form is the shortest. -/
theorem form (spelling : Spelling bytes h) : FormOf h.encode bytes := by
  obtain ⟨sized, -, typed, named, located, -⟩ := spelling
  have tag : FormOf [h.tier.tag] [h.tier.tag] := .inl rfl
  rw [Handle.encode, write_ofNat sized.word]
  exact tag.append (((sized.form.append typed.form).append named.form).append located.form)

end Spelling

theorem encode_spelling {h : Handle} (addressable : h.Addressable) (fits : h.Fits) :
    Spelling h.encode h := by
  have size : h.size < wordLimit := Nat.lt_trans addressable.size (by decide)
  rw [Handle.encode, write_ofNat size]
  exact .parts (word_numeral size) addressable.size (block_block addressable.mediaType)
    (block_block addressable.displayName) (block_block addressable.locator) fits

/-- Bytes are a handle if they spell it, and corrupt if they spell none. The written form of what
was read is read as the same, and is shorter than any other bytes that are. -/
theorem decode_spellings (bytes : Bytes) :
    (∀ h, decode bytes = .ok h ↔ Spelling bytes h) ∧
      ((∀ h, ¬ Spelling bytes h) → ∃ reason, decode bytes = .error (.corruptHandle reason)) ∧
      ∀ h, decode bytes = .ok h → decode h.encode = .ok h ∧
        ∀ other, decode other = .ok h → other = h.encode ∨ h.encode.length < other.length := by
  refine ⟨fun h => decode_eq_ok_iff, fun none => ?_, fun h accepted => ⟨?_, fun other same => ?_⟩⟩
  · exact decode_refuses fun h accepted => none h (decode_eq_ok_iff.1 accepted)
  · have spelling := decode_eq_ok_iff.1 accepted
    exact decode_eq_ok_iff.2 (encode_spelling spelling.addressable spelling.fits)
  · exact (decode_eq_ok_iff.1 same).form

def padded : Bytes := [1, 0x82, 0, 0x81, 0, 97, 0x80, 0, 0x82, 0, 5, 6]

def unpadded : Handle := ⟨"a", 2, "", .inline, [5, 6]⟩

theorem padded_normalised : decode padded = .ok unpadded ∧ decode unpadded.encode = .ok unpadded ∧
    unpadded.encode.length < padded.length := by
  obtain ⟨-, -, normal⟩ := decode_spellings padded
  obtain ⟨again, shortest⟩ := normal unpadded rfl
  have typed : utf8 unpadded.mediaType = [97] := by decide
  have named : utf8 unpadded.displayName = [] := by decide
  have written : unpadded.encode = [1, 2, 1, 97, 0, 2, 5, 6] := by
    rw [encode, typed, named]
    simp [block, unpadded, encode_of_lt, Tier.tag]
  refine ⟨rfl, again, (shortest padded rfl).resolve_left ?_⟩
  rw [written]
  decide

/-- Nothing short of a handle is one, nor is a handle with more after it. -/
theorem decode_delimited {bytes : Bytes} {h : Handle} (accepted : decode bytes = .ok h) :
    (∀ front, front <+: bytes → front ≠ bytes →
        ∃ reason, decode front = .error (.corruptHandle reason)) ∧
      ∀ extra, extra ≠ [] →
        decode (bytes ++ extra) = .error (.corruptHandle (.trailingBytes extra.length)) := by
  constructor
  · rintro front ⟨back, rfl⟩ cut
    -- A handle that ends before the others would leave them as trailing bytes.
    refine decode_refuses fun h' short => ?_
    have trailing := (decode_eq_ok_iff.1 short).read_append back
    have rest : back ≠ [] := by
      rintro rfl
      exact cut (List.append_nil front).symm
    rw [if_neg rest] at trailing
    cases (decode_of_error trailing).symm.trans accepted
  · intro extra rest
    have trailing := (decode_eq_ok_iff.1 accepted).read_append extra
    rw [if_neg rest] at trailing
    exact decode_of_error trailing

theorem padded_delimited : decode padded = .ok unpadded ∧
    (∀ front, front <+: padded → front ≠ padded →
      ∃ reason, decode front = .error (.corruptHandle reason)) ∧
    decode (padded ++ padded) = .error (.corruptHandle (.trailingBytes 12)) := by
  obtain ⟨cut, extended⟩ := decode_delimited (show decode padded = .ok unpadded from rfl)
  exact ⟨rfl, cut, extended padded (by decide)⟩

end Handle

end BlobLifecycle
