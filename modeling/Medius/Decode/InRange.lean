import Medius.Decode.Clip
import Medius.Decode.Events
import Medius.Decode.Replies

/-! Every payload decoder stays inside its payload. -/

namespace Medius.Decode

open Protocol Medius.Types Checked Checked.Reading

theorem inRange_return {α β : Type} {r : Reading α} (h : r.InRange) (f : α → β) :
    (do return f (← r)).InRange :=
  h.bind fun _ _ => inRange_value _

theorem inRange_motion (p : List UInt8) : (MotionEvent.readPayload p).InRange := by
  rw [motion_eq]
  exact inRange_ofOption _

theorem inRange_usages (p : List UInt8) : (UsageSnapshot.readPayload p).InRange := by
  rw [usages_eq]
  exact inRange_ofOption _

theorem inRange_traffic (p : List UInt8) : (TrafficEvent.readPayload p).InRange := by
  rw [traffic_eq]
  exact inRange_ofOption _

theorem inRange_patchEntry (p : List UInt8) : (readPatchEntry p).InRange := by
  rw [patchEntry_eq]
  exact inRange_ofOption _

theorem inRange_rewriteEntry (p : List UInt8) : (readRewriteEntry p).InRange := by
  rw [rewriteEntry_eq]
  exact inRange_ofOption _

theorem inRange_status (p : List UInt8) : (ClipStatus.readPayload p).InRange := by
  rw [status_eq]
  exact inRange_ofOption _

theorem inRange_settings (p : List UInt8) : (ClipSettings.readPayload p).InRange := by
  rw [settings_eq]
  exact inRange_ofOption _

/-- A setting is read only from a payload as long as its counts say. -/
theorem shape_of_settings {p : List UInt8} {s : ClipSettings}
    (h : ClipSettings.readPayload p = .value s) : Nonempty (ClipShape p) := by
  rw [settings_eq, ofOption_eq_value] at h
  obtain ⟨cfg, hcfg, -⟩ := Option.bind_eq_some_iff.mp h
  obtain ⟨shape, -⟩ := shape_of_configOffset hcfg
  exact ⟨shape⟩

theorem inRange_parseOption (p : List UInt8) : (parseOption p).InRange := by
  refine (inRange_get p 1).bind fun id _ => ?_
  simp only [inRange_ite, inRange_return, inRange_imperfect, inRange_movementRiding,
    inRange_emitPace, inRange_render, inRange_spread, inRange_bearing, inRange_refused,
    implies_true, and_true]

theorem inRange_parseResp (p : List UInt8) : (parseResp p).InRange := by
  refine (inRange_ofOption p.head?).bind fun what _ => ?_
  simp only [inRange_ite, inRange_return, inRange_version, inRange_health, inRange_deviceInfo,
    inRange_caps, inRange_rate, inRange_stats, inRange_ofOption, inRange_catch, inRange_status,
    inRange_firmware, inRange_rewrite, inRange_patches, inRange_transforms, inRange_parseOption,
    inRange_refused, implies_true, and_true]

theorem decoders_inRange (p : List UInt8) :
    (parseResp p).InRange ∧ (ClipSettings.readPayload p).InRange ∧
      (readRewriteEntry p).InRange ∧ (readPatchEntry p).InRange ∧
      (MotionEvent.readPayload p).InRange ∧ (UsageSnapshot.readPayload p).InRange ∧
      (TrafficEvent.readPayload p).InRange ∧
      ∀ s, ClipSettings.readPayload p = .value s → Nonempty (ClipShape p) :=
  ⟨inRange_parseResp p, inRange_settings p, inRange_rewriteEntry p, inRange_patchEntry p,
    inRange_motion p, inRange_usages p, inRange_traffic p, fun _ => shape_of_settings⟩

end Medius.Decode
