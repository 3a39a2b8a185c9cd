import EmuFront.App.Entry
import EmuFront.Proofs.Cutting
import EmuFront.Proofs.NulFree
import EmuFront.Proofs.Startups

/-!
# Traces that apps report

The trace of an exception is a text that may hold any character. Native code would read its bytes up
to the first NUL; but a trace that holds one is not handed over at all, so that it is recorded as if
it was empty, whatever stands before the NUL.
-/

namespace EmuFront

namespace Text

/-! ## Bytes up to a zero -/

/-- Only the NUL has a zero among its bytes. -/
theorem ne_zero_of_mem_utf8EncodeChar {c : Char} (other : c ≠ '\x00') {b : UInt8}
    (member : b ∈ String.utf8EncodeChar c) : b ≠ 0 := by
  rintro rfl
  exact other ((ofNat_mem_utf8EncodeChar (n := 0) (by decide)).1 member).symm

theorem takeWhile_utf8 (text : String) :
    (utf8 text).takeWhile (· ≠ 0) = utf8 (beforeNul text) := by
  rw [utf8, utf8, beforeNul, String.toList_ofList]
  induction text.toList with
  | nil => rfl
  | cons c cs ih =>
    by_cases nul : c = '\x00'
    · subst nul
      rfl
    · rw [List.flatMap_cons, List.takeWhile_cons, if_pos (by simpa using nul), List.flatMap_cons,
        List.takeWhile_append_of_pos, ih]
      intro b member
      simpa using ne_zero_of_mem_utf8EncodeChar nul member

theorem beforeNul_eq_self {text : String} (h : NulFree text) : beforeNul text = text := by
  have whole : text.toList.takeWhile (· ≠ '\x00') = text.toList := by
    refine List.takeWhile_eq_self_iff.2 fun c member => ?_
    simpa using ne_of_mem_of_not_mem member h
  rw [beforeNul, whole, String.ofList_toList]

end Text

/-- Native code reads the bytes of a text up to its first NUL. -/
theorem Native.textOf_utf8 (text : String) : Native.textOf (Text.utf8 text) = Text.beforeNul text := by
  rw [textOf, Text.takeWhile_utf8, Text.decode_utf8]

/-! ## Texts of records -/

theorem CrashRecord.layout_inj {f : Fingerprint} {kind : CrashKind} {trace other : String} :
    layout f kind trace = layout f kind other ↔ trace = other := by
  unfold layout
  rw [String.append_left_inj, String.append_right_inj]

namespace CrashCapture

open Text (byteLength)

/-- Whether the budget has room for a record with all of its trace. -/
def HasRoom (c : CrashCapture) (kind : CrashKind) (trace : String) : Prop :=
  byteLength (CrashRecord.layout c.fingerprint kind trace).toList ≤ c.budget

instance (c : CrashCapture) (kind : CrashKind) (trace : String) : Decidable (c.HasRoom kind trace) :=
  inferInstanceAs (Decidable (_ ≤ _))

variable {c : CrashCapture} {kind : CrashKind} {trace : String}

theorem format_of_hasRoom (room : c.HasRoom kind trace) :
    c.format kind trace = CrashRecord.layout c.fingerprint kind trace := by
  rw [format, CrashRecord.text_managed]
  exact Text.cut_eq_self ((Text.length_utf8 _).trans_le room)

/-- A record that there is room for differs from that of an empty trace, unless its trace is empty. -/
theorem format_eq_format_empty (room : c.HasRoom kind trace) :
    c.format kind trace = c.format kind "" ↔ trace = "" := by
  have shorter : c.HasRoom kind "" := by
    refine Nat.le_trans ?_ room
    unfold CrashRecord.layout
    simp only [String.toList_append, Text.byteLength_append, String.toList_empty, Text.byteLength]
    omega
  rw [format_of_hasRoom room, format_of_hasRoom shorter, CrashRecord.layout_inj]

end CrashCapture

/-- What was done with a failure tells the text of its record. -/
theorem Reported.format_eq {c : CrashCapture} {m m' : Machine} {kind : CrashKind}
    {trace other : String} (h : Reported c m kind trace m') (h' : Reported c m kind other m') :
    c.format kind trace = c.format kind other := by
  have calls := List.append_cancel_left (h.called.calls.symm.trans h'.called.calls)
  simpa using calls

theorem Reported.of_format_eq {c : CrashCapture} {m m' : Machine} {kind : CrashKind}
    {trace other : String} (h : Reported c m kind trace m')
    (same : c.format kind trace = c.format kind other) : Reported c m kind other m' := by
  obtain ⟨called, disk, appended, refused⟩ := h
  rw [same] at called disk appended refused
  exact ⟨called, disk, appended, refused⟩

namespace App

open Text (NulFree beforeNul nulOffset?)

/-! ## Reports -/

/-- What is recorded of a trace: nothing of one that holds a NUL. -/
def keptTrace (trace : String) : String := if NulFree trace then trace else ""

theorem isSome_nulOffset? (text : String) : (nulOffset? text).isSome = true ↔ ¬ NulFree text := by
  unfold nulOffset? NulFree
  split <;> simp_all

theorem stringBytes_some (text : String) :
    stringBytes (some text) = if NulFree text then some (Text.utf8 text) else none := by
  rw [stringBytes]
  simp only [isSome_nulOffset?, ite_not]

theorem textOf_stringBytes (trace : String) :
    ((stringBytes (some trace)).map Native.textOf).getD "" = keptTrace trace := by
  rw [stringBytes_some, keptTrace]
  split
  · rename_i free
    rw [Option.map_some, Option.getD_some, Native.textOf_utf8, Text.beforeNul_eq_self free]
  · rfl

theorem reportCrash_some (kind : Int32) (trace : String) :
    reportCrash kind (some trace) =
      Native.HostAct.work (Work.report (.ofCode kind) (keptTrace trace)) := by
  rw [reportCrash, Native.reportCrash, textOf_stringBytes]

section
variable {h : Native.NativeHost} {c : CrashCapture} (installed : h.machine.capture = some c)
include installed

/-- A trace is recorded as it is, or as an empty one. -/
theorem reported_keptTrace (code : Int32) (trace : String) :
    let ended := reportCrash code (some trace) h
    ended.1 = true ∧ ended.2.bridges = h.bridges ∧
      Reported c h.machine (.ofCode code) (keptTrace trace) ended.2.machine := by
  intro ended
  obtain ⟨recorded, reported⟩ := EmuFront.reported_of_report installed (.ofCode code) (keptTrace trace)
  have run : ended = Native.HostAct.work (Work.report (.ofCode code) (keptTrace trace)) h := by
    rw [← reportCrash_some]
  rw [run]
  exact ⟨recorded, rfl, reported⟩

/-- A report of an app is always recorded, and passed on, with the trace that is kept of it. That is
the record of the trace up to its first NUL exactly if there is no NUL, or if what stands before it
makes no difference to the record; and it makes one unless it is empty, where the record fits the
budget. -/
theorem trace_recorded_up_to_nul_iff (code : Int32) (trace : String) :
    let ended := reportCrash code (some trace) h
    let kind := CrashKind.ofCode code
    ended.1 = true ∧ ended.2.bridges = h.bridges ∧
    Reported c h.machine kind (keptTrace trace) ended.2.machine ∧
    (Reported c h.machine kind (beforeNul trace) ended.2.machine ↔
      NulFree trace ∨ c.format kind (beforeNul trace) = c.format kind "") ∧
    (c.HasRoom kind (beforeNul trace) →
      (c.format kind (beforeNul trace) = c.format kind "" ↔ beforeNul trace = "")) := by
  intro ended kind
  obtain ⟨recorded, bridges, kept⟩ := reported_keptTrace installed code trace
  refine ⟨recorded, bridges, kept, ?_, fun room => CrashCapture.format_eq_format_empty room⟩
  by_cases free : NulFree trace
  · rw [keptTrace, if_pos free] at kept
    rw [Text.beforeNul_eq_self free]
    exact ⟨fun _ => .inl free, fun _ => kept⟩
  · rw [keptTrace, if_neg free] at kept
    refine ⟨fun before => .inr (before.format_eq kept), fun same => ?_⟩
    obtain free' | same := same
    · exact absurd free' free
    · exact kept.of_format_eq same.symm

end

/-- A crash capture for a native engine that knows nothing about the device. -/
def capturing : CrashCapture := .new ⟨0, .native⟩ ⟨"data"⟩

/-- A host of a process with this capture, where the data directory is there. -/
def capturingHost : Native.NativeHost :=
  .new { Machine.new (Storage.Disk.empty.actAll [.makeDirectory ⟨"data"⟩]) with
    capture := some capturing }

/-- A trace without a NUL is recorded. -/
theorem trace_recorded_up_to_nul_iff_overflow :
    let trace := "at Main.run"
    let ended := reportCrash 2 (some trace) capturingHost
    capturingHost.machine.capture = some capturing ∧ capturing.HasRoom .stackCallOverflow trace ∧
      NulFree trace ∧
      Reported capturing capturingHost.machine .stackCallOverflow trace ended.2.machine := by
  intro trace ended
  have room : capturing.HasRoom .stackCallOverflow trace := by decide +kernel
  have free : NulFree trace := by decide +kernel
  obtain ⟨-, -, -, reported, -⟩ := trace_recorded_up_to_nul_iff
    (rfl : capturingHost.machine.capture = some capturing) 2 trace
  have recorded := reported.2 (.inl free)
  rw [Text.beforeNul_eq_self free] at recorded
  exact ⟨rfl, room, free, recorded⟩

/-- A trace with text before a NUL is recorded as an empty one, and not as that text. -/
theorem exists_trace_lost_for_nul :
    ∃ (h : Native.NativeHost) (c : CrashCapture) (code : Int32) (trace : String),
      h.machine.capture = some c ∧ trace = "boom\x00tail" ∧ beforeNul trace = "boom" ∧
      Reported c h.machine (.ofCode code) "" (reportCrash code (some trace) h).2.machine ∧
      ¬ Reported c h.machine (.ofCode code) (beforeNul trace)
        (reportCrash code (some trace) h).2.machine := by
  have before : beforeNul "boom\x00tail" = "boom" := by decide +kernel
  have room : capturing.HasRoom (.ofCode 0) "boom" := by decide +kernel
  obtain ⟨-, -, kept⟩ := reported_keptTrace
    (rfl : capturingHost.machine.capture = some capturing) 0 "boom\x00tail"
  rw [keptTrace, if_neg (by decide +kernel)] at kept
  refine ⟨capturingHost, capturing, 0, _, rfl, rfl, before, kept, fun recorded => ?_⟩
  rw [before] at recorded
  have same := (CrashCapture.format_eq_format_empty room).1 (recorded.format_eq kept)
  exact absurd same (by decide)

end App
end EmuFront
