import BlobLifecycle.Proofs.Dialogue
import BlobLifecycle.Proofs.Spelling
import BlobLifecycle.Writing

/-! Handles come from their constructors, from a finished write or from their written form. All
of them fit, so each is read back as it was written. -/
namespace BlobLifecycle

theorem Handle.inline_fits (mediaType displayName : String) (payload : Bytes) :
    (Handle.inline mediaType displayName payload).Fits := rfl

theorem Handle.fits_of_stored {spec : BlobSpec} {tier : Tier} {locator : Locator} {h : Handle}
    (made : Handle.stored spec tier locator = .ok h) : h.Fits := by
  unfold stored at made
  repeat' split at made
  all_goals cases made
  next external _ _ located =>
  cases tier with
  | inline => exact absurd rfl external
  | medium | large => exact located

namespace WriteSession

variable {own : List Effect}

/-- A stored handle is made by its constructor or not at all. -/
theorem deliver_fits (s : WriteSession) (tier : Tier) (locator : Locator) :
    (do
      if locator ≠ s.locator then throw (.storage (.foreignLocator tier))
      .ofExcept (Handle.stored s.spec tier locator) : Operation Handle).run.Obeys (fun _ _ => True)
        (fun _ result => ∀ h, result = .ok h → h.Fits) own := by
  show Program.Obeys _ _ (ExceptT.run (if locator ≠ s.locator then _ else _)) _
  split
  · intro h done
    cases done
  · intro h done
    exact Handle.fits_of_stored done

/-- Whatever a write is answered, the handle it ends with fits. -/
theorem finish_fits (s : WriteSession) (own : List Effect) :
    s.finish.run.Obeys (fun _ _ => True) (fun _ result => ∀ h, result = .ok h → h.Fits) own := by
  obtain ⟨spec, tier, sink, written⟩ := s
  show Program.Obeys _ _ (ExceptT.run (if written ≠ spec.size then _ else _)) _
  split
  · intro h done
    cases done
  · refine fun reply _ => ⟨fun _ _ => trivial, ?_⟩
    cases reply with
    | error e => intro h done; cases done
    | ok locator =>
      cases tier with
      | inline =>
        intro h done
        cases done
        exact Handle.inline_fits ..
      | medium =>
        exact .silent (fun _ => rfl) fun _ _ => deliver_fits ⟨spec, .medium, sink, written⟩ ..
      | large =>
        exact .silent (fun _ => rfl) fun _ _ => deliver_fits ⟨spec, .large, sink, written⟩ ..

end WriteSession

namespace Handle

/-- The ways to come by a handle. Those that make one make it of what memory holds; a write may
have ended so after any exchanges. -/
inductive Obtained : Handle → Prop
  | inline {mediaType displayName : String} {payload : Bytes}
      (held : (Handle.inline mediaType displayName payload).Addressable) :
      Obtained (.inline mediaType displayName payload)
  | stored {spec : BlobSpec} {tier : Tier} {locator : Locator} {h : Handle}
      (made : Handle.stored spec tier locator = .ok h) (held : h.Addressable) : Obtained h
  | decoded {bytes : Bytes} {h : Handle} (accepted : decode bytes = .ok h) : Obtained h
  | finished {s : WriteSession} {v v' : Vault} {xs : List Exchange} {h : Handle}
      (dialogue : Dialogue v xs v') (ended : s.finish.run.Joins xs (.done (.ok h)))
      (held : h.Addressable) : Obtained h

namespace Obtained

variable {h : Handle}

theorem fits (obtained : h.Obtained) : h.Fits := by
  cases obtained with
  | inline => exact inline_fits ..
  | stored made => exact fits_of_stored made
  | decoded accepted => exact (decode_eq_ok_iff.1 accepted).fits
  | finished dialogue ended => exact ended.obeys (WriteSession.finish_fits _ []) dialogue h rfl

theorem addressable (obtained : h.Obtained) : h.Addressable := by
  cases obtained with
  | inline held | stored _ held | finished _ _ held => exact held
  | decoded accepted => exact (decode_eq_ok_iff.1 accepted).addressable

end Obtained

theorem decode_encode {h : Handle} (obtained : h.Obtained) : decode h.encode = .ok h :=
  decode_eq_ok_iff.2 (encode_spelling obtained.addressable obtained.fits)

end Handle

namespace Sample

def greatest : Handle := ⟨"vidéo", 0x7FFFFFFFFFFFFFFF, "", .large, [7]⟩

/-- Two bytes were declared and accepted, and are to stay in the handle. -/
def accepted : WriteSession := ⟨⟨"a", "é", 2⟩, .inline, ⟨.inline, [], "a", 5, [8, 9], false⟩, 2⟩

end Sample

open Sample in
theorem greatest_and_accepted_round_trip :
    Handle.decode greatest.encode = .ok greatest ∧
      (accepted.finish.run.play (.numbered 5) [none]).2.1 = .done (.ok (.inline "a" "é" [8, 9])) ∧
      Handle.decode (Handle.inline "a" "é" [8, 9]).encode = .ok (.inline "a" "é" [8, 9]) := by
  have made : Handle.stored ⟨"vidéo", "", 0x7FFFFFFFFFFFFFFF⟩ .large [7] = .ok greatest := rfl
  have held : greatest.Addressable := ⟨by decide, by decide, by decide, by decide⟩
  have held' : (Handle.inline "a" "é" [8, 9]).Addressable :=
    ⟨by decide, by decide, by decide, by decide⟩
  obtain ⟨dialogue, ended⟩ := accepted.finish.run.play_dialogue (.numbered 5) [none]
  exact ⟨Handle.decode_encode (.stored made held), rfl,
    Handle.decode_encode (.finished dialogue ended held')⟩


end BlobLifecycle
