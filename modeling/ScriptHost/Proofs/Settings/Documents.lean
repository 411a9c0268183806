import Mathlib.Algebra.Group.Nat.Defs
import ScriptHost.Proofs.Settings.Merging
import ScriptHost.Proofs.Toml.Integers
import ScriptHost.Settings.Document

/-!
# Settings from documents

A document is accepted when it decodes to settings that the program can work with,
`ofDocument_eq_ok_iff`. Its numbers are then bounded twice, by the width of their field and by the
width of a TOML integer: `ofDocument_written`.
-/

namespace ScriptHost

/-! ## Fields -/

namespace Toml

/-- Every integer in the fields of a record has 64 bits. -/
def Record.Fits : Record → Prop
  | .named members => ∀ member ∈ members, member.2.Fits
  | .listed items => ∀ item ∈ items, item.Fits

variable {α : Type} {r : Record} {v : Value} {index : Nat} {name : String} {d : Decoder α}

theorem Record.fits_ofValue? (hv : v.Fits) (h : Record.ofValue? v = some r) : r.Fits := by
  cases hv with
  | array hitems =>
      obtain rfl := Option.some.inj h
      exact hitems
  | table hmembers =>
      obtain rfl := Option.some.inj h
      exact hmembers
  | datetime text =>
      obtain rfl := Option.some.inj h
      intro member hmember
      obtain rfl := List.mem_singleton.mp hmember
      exact .string text
  | string | integer | float | boolean => cases h

theorem Record.Fits.field? (hr : r.Fits) (h : r.field? index name = some v) : v.Fits := by
  cases r with
  | named members =>
      obtain ⟨member, hmember, rfl⟩ := Option.map_eq_some_iff.mp h
      exact hr member (List.mem_of_find?_eq_some hmember)
  | listed items => exact hr v (List.mem_of_getElem? h)

/-- What a decoder ensures of every value holds of an optional field that is there. -/
theorem Record.Fits.optional {P : α → Prop} (hr : r.Fits)
    (hdecode : ∀ v a, v.Fits → d v = some a → P a) {field : Option α}
    (h : r.optional index name d = some field) : ∀ a ∈ field, P a := by
  unfold Record.optional at h
  cases hfield : r.field? index name with
  | none =>
      rw [hfield] at h
      obtain rfl := Option.some.inj h
      intro a ha
      cases ha
  | some v =>
      rw [hfield] at h
      obtain ⟨a, ha, rfl⟩ := Option.map_eq_some_iff.mp h
      intro b hb
      obtain rfl := Option.some.inj hb
      exact hdecode v a (hr.field? hfield) ha

/-- What a decoder ensures of every value holds of a field with a default that has it as well. -/
theorem Record.Fits.withDefault {P : α → Prop} (hr : r.Fits)
    (hdecode : ∀ v a, v.Fits → d v = some a → P a) {default a : α} (hdefault : P default)
    (h : r.withDefault index name d default = some a) : P a := by
  obtain ⟨field, hfield, rfl⟩ := Option.map_eq_some_iff.mp h
  cases field with
  | none => exact hdefault
  | some a => exact hr.optional hdecode hfield a rfl

/-- An unsigned number has the width of its field, and one bit less than 64. -/
theorem Decoder.natBelow_lt {bound n : Nat} (hv : v.Fits) (h : natBelow bound v = some n) :
    n < bound ∧ n < 2 ^ 63 := by
  cases hv with
  | @integer i hfits =>
      unfold natBelow at h
      dsimp only at h
      split at h
      · rename_i hbounds
        obtain rfl := Option.some.inj h
        have hwidth : i < 2 ^ 63 := by
          unfold fits64 at hfits
          simp only [Bool.and_eq_true, decide_eq_true_eq] at hfits
          exact hfits.2
        omega
      · cases h
  | string | float | boolean | datetime | array | table => cases h

end Toml

/-- Poll limits as they can be written. -/
structure PollLimits.Written (l : PollLimits) : Prop where
  waits : l.waitMillis < 2 ^ 63
  polls : l.loopCount < 2 ^ 32

theorem PollLimits.written_default : PollLimits.default.Written :=
  ⟨by decide, by decide⟩

theorem PollLimits.written_of_decode {v : Toml.Value} {l : PollLimits} (hv : v.Fits)
    (h : decode v = some l) : l.Written := by
  simp only [decode, Option.bind_eq_bind, Option.bind_eq_some_iff] at h
  obtain ⟨r, hr, wait, hwait, loops, hloops, h⟩ := h
  obtain rfl := Option.some.inj h
  have hfits := Toml.Record.fits_ofValue? hv hr
  exact {
    waits := hfits.withDefault (fun _ _ hv hn => (Toml.Decoder.natBelow_lt hv hn).2) (by decide)
      hwait
    polls := hfits.withDefault (fun _ _ hv hn => (Toml.Decoder.natBelow_lt hv hn).1) (by decide)
      hloops }

theorem EngineSettings.timeout_of_decode {v : Toml.Value} {s : EngineSettings} (hv : v.Fits)
    (h : decode v = some s) : s.runTimeoutSeconds < 2 ^ 63 := by
  simp only [decode, Option.bind_eq_bind, Option.bind_eq_some_iff] at h
  obtain ⟨r, hr, _, -, _, -, _, -, _, -, seconds, hseconds, h⟩ := h
  obtain rfl := Option.some.inj h
  exact (Toml.Record.fits_ofValue? hv hr).withDefault
    (fun _ _ hv hn => (Toml.Decoder.natBelow_lt hv hn).2) (by decide) hseconds

namespace Settings

variable {text : String} {s : Settings}

/-- Settings as they can be written. -/
structure Written (s : Settings) : Prop where
  command : s.commandOrDefault.Written
  timeout : s.enginesOrDefault.runTimeoutSeconds < 2 ^ 63

theorem written_of_decode {v : Toml.Value} (hv : v.Fits) (h : decode v = some s) : s.Written := by
  cases hv with
  | @table members hmembers =>
      simp only [decode, Option.bind_eq_bind, Option.bind_eq_some_iff] at h
      obtain ⟨_, -, engines, hengines, command, hcommand, _, -, _, -, _, -, h⟩ := h
      obtain rfl := Option.some.inj h
      have hfits : (Toml.Record.named members).Fits := hmembers
      have hlimits := hfits.optional (fun _ _ => PollLimits.written_of_decode) hcommand
      have htimeout := hfits.optional (fun _ _ => EngineSettings.timeout_of_decode) hengines
      constructor
      · cases command with
        | none => exact PollLimits.written_default
        | some limits => exact hlimits limits rfl
      · cases engines with
        | none =>
            show EngineSettings.default.runTimeoutSeconds < 2 ^ 63
            decide
        | some engines => exact htimeout engines rfl
  | string | integer | float | boolean | datetime | array => cases h

/-- A document is accepted when it decodes to settings that the program can work with. -/
theorem ofDocument_eq_ok_iff :
    ofDocument text = .ok s ↔ (Toml.read? text).bind decode = some s ∧ s.Usable := by
  rw [← fault?_eq_none_iff]
  unfold ofDocument checked
  cases hdecode : (Toml.read? text).bind decode with
  | none => simp
  | some decoded =>
      cases hfault : decoded.fault? with
      | none =>
          simp only [hfault, Except.ok.injEq, Option.some.injEq]
          constructor
          · rintro rfl
            exact ⟨rfl, hfault⟩
          · exact And.left
      | some fault =>
          simp only [hfault, Option.some.injEq, false_iff, reduceCtorEq]
          rintro ⟨rfl, hnone⟩
          rw [hnone] at hfault
          cases hfault

/-- The numbers of an accepted document are as they can be written. -/
theorem ofDocument_written (h : ofDocument text = .ok s) : s.Written := by
  obtain ⟨v, hread, hdecode⟩ := Option.bind_eq_some_iff.mp (ofDocument_eq_ok_iff.mp h).1
  exact written_of_decode (Toml.read?_fits hread) hdecode

end Settings

end ScriptHost
