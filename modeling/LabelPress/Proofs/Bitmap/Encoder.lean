import LabelPress.Bitmap.Encoder
import Mathlib.Tactic.SplitIfs

/-!
# Why encoders refuse

An encoder refuses a setting or a resolution that is no number of its kind or does not fit its
words, a quality or a level that it does not know, and a bitmap that is too large for it. It may run
out of memory or fail for a cause of its own. The encoders whose demands are known are of this kind.
-/

namespace LabelPress

/-- The causes for which an encoder gives no file. -/
inductive Fault.OfEncoder : Fault → Prop
  | noInteger (kind : String) : OfEncoder (.noInteger kind)
  | beyondFloat : OfEncoder .integerBeyondFloat
  | infinity : OfEncoder .infinityToInteger
  | nan : OfEncoder .nanToInteger
  | beyondWord (word : Number.Word) (small : Bool) : OfEncoder (.beyondWord word small)
  | notAName (kind : String) : OfEncoder (.notAName kind)
  | invalidQuality : OfEncoder .invalidQuality
  | keptQuality : OfEncoder .keptQuality
  | setting : OfEncoder .encoderSetting
  | failed : OfEncoder .encoderFailed
  | outOfMemory : OfEncoder .outOfMemory
  | own (kind : Foreign) (detail : String) : OfEncoder (.foreign kind detail)

namespace Bitmap

open LabelPress.Number LabelPress.Settings

/-- A result, if it is a fault, is one that an encoder has. -/
def EncoderResult {α : Type} (x : Except Fault α) : Prop :=
  ∀ fault, x = .error fault → fault.OfEncoder

namespace EncoderResult

variable {α β : Type} {x : Except Fault α} {f : α → Except Fault β} {fault : Fault} {a : α}

theorem ok : EncoderResult (.ok a : Except Fault α) := nofun

theorem error (h : fault.OfEncoder) : EncoderResult (.error fault : Except Fault α) := by
  rintro _ ⟨⟩
  exact h

/-- One result after another has no more faults than both. -/
theorem bind (hx : EncoderResult x) (hf : ∀ a, EncoderResult (f a)) : EncoderResult (x.bind f) := by
  cases x with
  | error fault => exact error (hx fault rfl)
  | ok a => exact hf a

end EncoderResult

open EncoderResult

theorem encoderResult_ofInt (n : Int) : EncoderResult (Binary64.ofInt n) := by
  unfold Binary64.ofInt
  split
  · exact error .beyondFloat
  · exact ok

theorem encoderResult_toReal (q : Quantity) : EncoderResult q.toReal := by
  cases q with
  | whole n => exact encoderResult_ofInt n
  | real x => exact ok

theorem encoderResult_toIntBy (round : Bool → Nat → Nat → Nat) (x : Binary64) :
    EncoderResult (x.toIntBy round) := by
  cases x with
  | nan => exact error .nan
  | infinite s => exact error .infinity
  | finite s m e => exact ok

theorem encoderResult_fit (w : Word) (n : Int) : EncoderResult (w.fit n) := by
  unfold Word.fit
  split
  · exact ok
  · exact error (.beyondWord w _)

theorem encoderResult_quantityOf (v : Value) : EncoderResult (quantityOf v) := by
  unfold quantityOf
  split
  · exact ok
  · exact error (.noInteger _)

theorem encoderResult_integerOf (v : Value) : EncoderResult (integerOf v) := by
  unfold integerOf
  split
  · exact ok
  · exact error (.noInteger _)

namespace Png

theorem encoderResult_dotsPerMetre (dpi : Quantity) : EncoderResult (dotsPerMetre dpi) :=
  (encoderResult_toReal dpi).bind fun _ => encoderResult_toIntBy _ _

theorem encoderResult_check (s : Saving) : EncoderResult (check s) := by
  refine (encoderResult_quantityOf s.dpi).bind fun dpi => ?_
  refine (encoderResult_dotsPerMetre dpi).bind fun dots => ?_
  refine (encoderResult_fit _ dots).bind fun _ => ?_
  refine (encoderResult_integerOf s.option).bind fun option => ?_
  refine (encoderResult_fit _ option).bind fun level => ?_
  split
  · exact ok
  · exact error .setting

end Png

namespace Jpeg

theorem encoderResult_dotsPerInch (q : Quantity) : EncoderResult (dotsPerInch q) := by
  cases q with
  | whole n => exact ok
  | real x => exact encoderResult_toIntBy _ x

theorem encoderResult_qualityNumber? (v : Value) : EncoderResult (qualityNumber? v) := by
  unfold qualityNumber?
  split
  · split
    · exact error .invalidQuality
    · split_ifs
      · exact error .keptQuality
      · exact ok
      · exact error .invalidQuality
  · exact error (.notAName _)
  · exact error (.notAName _)
  · split
    · exact ok
    · exact error .invalidQuality

theorem encoderResult_check (s : Saving) : EncoderResult (check s) := by
  refine (encoderResult_quantityOf s.dpi).bind fun dpi => ?_
  refine (encoderResult_dotsPerInch dpi).bind fun dots => ?_
  refine (encoderResult_qualityNumber? s.option).bind fun quality => ?_
  refine (encoderResult_fit _ _).bind fun _ => ?_
  refine (encoderResult_fit _ dots).bind fun _ => ?_
  split
  · exact ok
  · exact error .failed

end Jpeg

/-- An encoder refuses for its own reasons only. -/
theorem ofEncoder_of_check {s : Saving} {fault : Fault} (h : s.check = .error fault) :
    fault.OfEncoder := by
  unfold Saving.check at h
  split at h
  · exact Png.encoderResult_check s fault h
  · exact Jpeg.encoderResult_check s fault h

end Bitmap

end LabelPress
