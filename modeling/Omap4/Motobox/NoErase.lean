import Omap4.Motobox.CommandFile

/-!
# Omap4.Motobox.NoErase — the flag that keeps the user data (`set_no_erase_data_flag`)

`setconfig -no_erase_data` leaves a file for the recovery, which then does not erase the user data.
The file stays until the recovery has run, and a later request without the option does not take it
away: after a sequence of requests it is there if one of them had the option (`noEraseData_exec`).
-/

namespace Omap4.Motobox

open Machine

/-- A run of `setconfig`. -/
structure ConfigRun where
  sys : SystemFiles
  argv : List CStr
  o : SetconfigOutcome

/-- The run is given `-no_erase_data`. -/
def ConfigRun.keepsData (r : ConfigRun) : Bool :=
  r.argv.length = 3 && r.argv[1]? = some "-no_erase_data".toList

/-- A successful run, in which the flag can be created if it is asked for. -/
def configStep (s : Store) (r : ConfigRun) : Option Store :=
  if r.keepsData && !r.o.flagOpenOk then none
  else match setconfigMain r.sys r.argv r.o s with
    | (.none, s') => some s'
    | _ => none

/-- The last run was given `-no_erase_data`. -/
def LastKeepsData (runs : List ConfigRun) : Prop := ∃ r, runs.getLast? = some r ∧ r.keepsData = true

/-- The option is what the arguments are parsed to. -/
theorem dontErase_of_accepted {r : ConfigRun} {q : Request} (h : accepted r.sys r.argv = some q) :
    q.dontErase = r.keepsData := by
  have hparse : parseArgs r.argv = some q := by
    unfold accepted at h
    split_ifs at h
    exact (Option.filter_eq_some_iff.mp h).1
  unfold ConfigRun.keepsData
  unfold parseArgs at hparse
  split at hparse
  · next hargv =>
    rw [← Option.some.inj hparse, hargv]
    rfl
  · next opt confid hargv =>
    rw [hargv]
    split_ifs at hparse with hnorecovery hkeep
    · rw [← Option.some.inj hparse, hnorecovery]
      simp
    · rw [← Option.some.inj hparse, hkeep]
      simp
  · cases hparse

/-- **Step lemma**: a run adds the flag or leaves it as it is. -/
theorem noEraseData_configStep {s s' : Store} {r : ConfigRun} (h : configStep s r = some s') :
    s'.noEraseData.isSome = (s.noEraseData.isSome || r.keepsData) := by
  unfold configStep at h
  split_ifs at h with hopen
  split at h
  · next t hmain =>
    obtain rfl := Option.some.inj h
    obtain ⟨q, u, hq, hrequested⟩ := setconfig_none hmain
    rw [hrequested.flag, dontErase_of_accepted hq]
    cases hkeep : r.keepsData with
    | false => rw [if_neg (by simp), hrequested.noEraseData, Bool.or_false]
    | true =>
      have hflag : r.o.flagOpenOk = true := by simpa [hkeep] using hopen
      rw [if_pos rfl, setNoEraseDataFlag, if_neg (not_not.mpr hflag), Bool.or_true]
      rfl
  · cases h

/-- **Run lemma**: the flag is there after the runs if it was there before or one of them had the
option. -/
theorem noEraseData_exec {s s' : Store} {runs : List ConfigRun}
    (h : exec configStep s runs = some s') :
    s'.noEraseData.isSome = (s.noEraseData.isSome || runs.any ConfigRun.keepsData) := by
  induction runs generalizing s with
  | nil =>
    obtain rfl := Option.some.inj h
    rw [List.any_nil, Bool.or_false]
  | cons r runs ih =>
    obtain ⟨t, hstep, hrest⟩ := exec_cons_some h
    rw [ih hrest, noEraseData_configStep hstep, List.any_cons, Bool.or_assoc]

/-- **When the flag follows the last request.**  Starting without the flag, after every sequence of
successful runs the flag is there exactly when the last run had the option, if and only if the last
run had it or none had. -/
theorem noEraseData_follows_iff {s s' : Store} {runs : List ConfigRun} (hs : s.noEraseData = none)
    (h : exec configStep s runs = some s') :
    (s'.noEraseData.isSome = true ↔ LastKeepsData runs) ↔
      LastKeepsData runs ∨ ∀ r ∈ runs, r.keepsData = false := by
  have hany : s'.noEraseData.isSome = true ↔ ∃ r ∈ runs, r.keepsData = true := by
    rw [noEraseData_exec h, hs, Option.isSome_none, Bool.false_or, List.any_eq_true]
  rw [hany]
  constructor
  · intro hiff
    by_cases hlast : LastKeepsData runs
    · exact .inl hlast
    · refine .inr fun r hr => ?_
      by_contra hkeep
      exact hlast (hiff.mp ⟨r, hr, by simpa using hkeep⟩)
  · rintro (hlast | hnone)
    · refine iff_of_true ?_ hlast
      obtain ⟨r, hr, hkeep⟩ := hlast
      exact ⟨r, List.mem_of_getLast? hr, hkeep⟩
    · refine iff_of_false ?_ ?_
      · rintro ⟨r, hr, hkeep⟩
        rw [hnone r hr] at hkeep
        cases hkeep
      · rintro ⟨r, hr, hkeep⟩
        rw [hnone r (List.mem_of_getLast? hr)] at hkeep
        cases hkeep

/-- The configuration 7 is requested, and all operations work. -/
def plainRun : ConfigRun :=
  ⟨configuredSystem, ["setconfig".toList, "7".toList], workingOutcome "package".toList⟩

def keepRun : ConfigRun :=
  ⟨configuredSystem, ["setconfig".toList, "-no_erase_data".toList, "7".toList],
    workingOutcome "package".toList⟩

theorem noEraseData_asked_last :
    ∃ s, exec configStep cleanStore [plainRun, keepRun] = some s ∧
      (s.noEraseData.isSome = true ↔ LastKeepsData [plainRun, keepRun]) := by
  obtain ⟨s, hrun⟩ : ∃ s, exec configStep cleanStore [plainRun, keepRun] = some s := ⟨_, rfl⟩
  refine ⟨s, hrun, (noEraseData_follows_iff rfl hrun).mpr ?_⟩
  exact .inl ⟨keepRun, rfl, by decide +kernel⟩

/-- The request without the option is the last, and the flag of the one before it is still there. -/
theorem noEraseData_stale :
    ∃ s, exec configStep cleanStore [keepRun, plainRun] = some s ∧ s.noEraseData.isSome = true ∧
      ¬ (s.noEraseData.isSome = true ↔ LastKeepsData [keepRun, plainRun]) := by
  have hplain : ¬ LastKeepsData [keepRun, plainRun] := by
    rintro ⟨r, hr, hkeep⟩
    obtain rfl : plainRun = r := Option.some.inj hr
    exact absurd hkeep (by decide +kernel)
  obtain ⟨s, hrun, hflag⟩ : ∃ s, exec configStep cleanStore [keepRun, plainRun] = some s ∧
      s.noEraseData.isSome = true := ⟨_, rfl, by decide +kernel⟩
  exact ⟨s, hrun, hflag, fun hiff => hplain (hiff.mp hflag)⟩

end Omap4.Motobox
