import NodeFleet.Fleet.Provisioner
import NodeFleet.Proofs.Cloud.Records
import NodeFleet.Proofs.Time.Offsets

/-!
# Creation times

A machine is deployed with the text of the present second. Its record keeps the text as long as the
cloud has the machine, so every claim that is made of the record has that second as its creation.
-/

namespace NodeFleet

open Cloud (DeployRequest Inventory VirtualMachine)

/-- No offset, written with the sign of the east. -/
def ClockOffset.greenwich : ClockOffset :=
  ⟨false, 0, by decide⟩

namespace Instant

/-- The instant without its fraction of a second; a leap second stays one. -/
def wholeSecond (t : Instant) : Instant where
  seconds := t.seconds
  nanos := t.nanos - t.nanos % 1000000000
  nanos_lt := Nat.lt_of_le_of_lt (Nat.sub_le _ _) t.nanos_lt
  leap h := t.leap (Nat.le_trans h (Nat.sub_le _ _))

variable (t : Instant)

theorem nanos_wholeSecond : t.wholeSecond.nanos % 1000000000 = 0 := by
  simp only [wholeSecond]
  omega

theorem localText_wholeSecond (offset : Int) : t.wholeSecond.localText offset = t.localText offset := by
  have hleap : 1000000000 ≤ t.wholeSecond.nanos ↔ 1000000000 ≤ t.nanos := by
    simp only [wholeSecond]
    omega
  simp only [localText, hleap]
  rfl

/-- The creation time of a machine is read as the second in which it was written. -/
theorem ofCreationText?_creationText {t : Instant} (year : 0 ≤ Calendar.yearOf (t.seconds / 86400))
    (year' : Calendar.yearOf (t.seconds / 86400) ≤ 9999) :
    ofCreationText? t.creationText = some t.wholeSecond := by
  have hzone : offsetText 0 = "+0000".toList := by decide
  have written : ClockOffset.greenwich.Written "+0000".toList := .plain
  have hday : (t.wholeSecond.seconds + ClockOffset.greenwich.seconds) / 86400 = t.seconds / 86400 :=
    congrArg (· / 86400) (Int.add_zero t.seconds)
  have hread := ofCreationText?_written t.nanos_wholeSecond (hday ▸ year) (hday ▸ year') written
  rwa [localText_wholeSecond, ← hzone] at hread

end Instant

/-- Whatever the offset, a whole second is read back from each of its texts, if its local time is of
the years 0 to 9999. So the second in which a machine is deployed is the creation time of all claims
that are made of its record. A text that is of both grammars means one instant, and it does not matter
which of them is tried first. -/
theorem creation_times_are_read_back :
    (∀ (t : Instant) (o : ClockOffset) (zone : List Char), t.nanos % 1000000000 = 0 →
      0 ≤ Calendar.yearOf ((t.seconds + o.seconds) / 86400) →
      Calendar.yearOf ((t.seconds + o.seconds) / 86400) ≤ 9999 → o.Written zone →
        Instant.ofCreationText? (String.ofList (t.localText o.seconds ++ zone)) = some t) ∧
    (∀ (inv : Inventory) (today : Instant) (r : DeployRequest),
      0 ≤ Calendar.yearOf (today.seconds / 86400) → Calendar.yearOf (today.seconds / 86400) ≤ 9999 →
        ∃ vm, (inv.deploy today r).2.machines = inv.machines ++ [vm] ∧
          ∀ later tags now, vm.SameRecord later →
            ((Instance.ofMachine later tags).toClaim now).creation = some today.wholeSecond) ∧
    ∀ text : String,
      (∀ s p, (LocalTime.readStrict? text.toList).bind LocalTime.toInstant? = some s →
        (LocalTime.readPlain? text.toList).bind LocalTime.toInstant? = some p → s = p) ∧
      Instant.ofCreationText? text =
        ((LocalTime.readPlain? text.toList).bind LocalTime.toInstant?).or
          ((LocalTime.readStrict? text.toList).bind LocalTime.toInstant?) := by
  refine ⟨fun t o zone whole year year' written => ?_, fun inv today r year year' => ?_,
    fun text => ⟨fun s p => Instant.eq_of_strict_of_plain, Instant.ofCreationText?_eq_plain_or text⟩⟩
  · exact Instant.ofCreationText?_written whole year year' written
  · refine ⟨_, Inventory.machines_deploy today r inv, fun later tags now same => ?_⟩
    have hcreated : later.created = today.creationText := by
      rw [same]
      rfl
    change Instant.ofCreationText? later.created = _
    rw [hcreated, Instant.ofCreationText?_creationText year year']

section LeapSecond

/-- The leap second at the end of 2016. -/
def leapSecond2016 : Instant :=
  ⟨1483228799, 1000000000, by decide, by decide⟩

/-- An offset of five and a half hours to the east. -/
def kolkata : ClockOffset :=
  ⟨false, 330, by decide⟩

/-- At that offset the leap second is in the next year. -/
theorem creation_times_are_read_back_of_leap_second :
    leapSecond2016.localText kolkata.seconds = "2017-01-01T05:29:60".toList ∧
      Instant.ofCreationText? "2017-01-01T05:29:60+0530" = some leapSecond2016 ∧
      Instant.ofCreationText? "2017-01-01T05:29:60+05:30" = some leapSecond2016 := by
  obtain ⟨hread, -, -⟩ := creation_times_are_read_back
  have hlocal : leapSecond2016.localText kolkata.seconds = "2017-01-01T05:29:60".toList := by
    decide +kernel
  refine ⟨hlocal, ?_, ?_⟩
  · have h := hread leapSecond2016 kolkata _ (by decide) (by decide) (by decide) .plain
    rw [hlocal] at h
    exact h
  · have h := hread leapSecond2016 kolkata _ (by decide) (by decide) (by decide) .colon
    rw [hlocal] at h
    exact h

end LeapSecond

end NodeFleet
