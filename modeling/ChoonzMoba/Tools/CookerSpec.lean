import ChoonzMoba.Assets.MbaSpec
import ChoonzMoba.Assets.RegistryAcquire
import ChoonzMoba.Assets.TgaFile
import ChoonzMoba.Tools.Cooker

namespace ChoonzMoba

section

variable {options options' : CookerOptions} {option value : CString} {job : CookerJob}
  {argv : List CString}

def CookerOptions.given (options : CookerOptions) : List (List UInt8 × CString) :=
  options.input.toList.map (cookerInputOption, ·) ++
    (options.assetPath.toList.map (cookerAssetOption, ·) ++
      options.output.toList.map (cookerOutputOption, ·))

def CookerJob.given (job : CookerJob) : List (List UInt8 × CString) :=
  [(cookerInputOption, job.input), (cookerAssetOption, job.assetPath),
    (cookerOutputOption, job.output)]

def cookerPair (pair : CString × CString) : List UInt8 × CString := (pair.1.text, pair.2)

theorem cookerOption_given (h : cookerOption options option value = some options') :
    value.text ≠ [] ∧ options'.given.Perm ((option.text, value) :: options.given) := by
  obtain ⟨input, assetPath, output⟩ := options
  unfold cookerOption at h
  split at h
  · cases h
  next hvalue =>
  refine ⟨hvalue, ?_⟩
  split at h
  · next hinput =>
    cases h
    obtain rfl : input = none := Option.isNone_iff_eq_none.mp hinput.2
    rw [hinput.1]
    exact List.Perm.refl _
  split at h
  · next hasset =>
    cases h
    obtain rfl : assetPath = none := Option.isNone_iff_eq_none.mp hasset.2
    rw [hasset.1]
    exact List.perm_middle
  split at h
  · next houtput =>
    cases h
    obtain rfl : output = none := Option.isNone_iff_eq_none.mp houtput.2
    rw [houtput.1]
    simp only [CookerOptions.given, Option.toList_none, List.map_nil, List.append_nil,
      ← List.append_assoc]
    exact List.perm_append_comm
  · cases h

theorem cookerOption_accepts (hvalue : value.text ≠ [])
    (hname : option.text ∈ job.given.map Prod.fst)
    (hnew : option.text ∉ options.given.map Prod.fst) :
    ∃ options', cookerOption options option value = some options' := by
  obtain ⟨input, assetPath, output⟩ := options
  simp only [CookerJob.given, List.map_cons, List.map_nil, List.mem_cons, List.not_mem_nil,
    or_false] at hname
  unfold cookerOption
  rw [if_neg hvalue]
  rcases hname with hname | hname | hname
  · cases input with
    | none => exact ⟨_, if_pos ⟨hname, rfl⟩⟩
    | some other => exact absurd (by simp [CookerOptions.given, hname]) hnew
  · rw [if_neg fun h => absurd (hname.symm.trans h.1) (by decide)]
    cases assetPath with
    | none => exact ⟨_, if_pos ⟨hname, rfl⟩⟩
    | some other => exact absurd (by simp [CookerOptions.given, hname]) hnew
  · rw [if_neg fun h => absurd (hname.symm.trans h.1) (by decide),
      if_neg fun h => absurd (hname.symm.trans h.1) (by decide)]
    cases output with
    | none => exact ⟨_, if_pos ⟨hname, rfl⟩⟩
    | some other => exact absurd (by simp [CookerOptions.given, hname]) hnew

def cookerArguments (pairs : List (CString × CString)) : List CString :=
  pairs.flatMap fun pair => [pair.1, pair.2]

theorem cookerOptionPairs_given {pairs : List (CString × CString)}
    (h : cookerOptionPairs (cookerArguments pairs) options = some options') :
    (∀ pair ∈ pairs, pair.2.text ≠ []) ∧
      options'.given.Perm (pairs.map cookerPair ++ options.given) := by
  induction pairs generalizing options with
  | nil =>
    cases h
    exact ⟨fun pair hpair => absurd hpair List.not_mem_nil, List.Perm.refl _⟩
  | cons pair pairs ih =>
    obtain ⟨middle, hfirst, hrest⟩ := Option.bind_eq_some_iff.mp h
    obtain ⟨hvalue, hmiddle⟩ := cookerOption_given hfirst
    obtain ⟨hvalues, hperm⟩ := ih hrest
    refine ⟨fun other hother => ?_, ?_⟩
    · rcases List.mem_cons.mp hother with rfl | hother
      · exact hvalue
      · exact hvalues other hother
    · exact hperm.trans ((hmiddle.append_left _).trans List.perm_middle)

theorem cookerOptionPairs_accepts {pairs : List (CString × CString)}
    (hvalues : ∀ pair ∈ pairs, pair.2.text ≠ [])
    (hnames : ∀ pair ∈ pairs, pair.1.text ∈ job.given.map Prod.fst)
    (hnodup : ((pairs.map cookerPair ++ options.given).map Prod.fst).Nodup) :
    ∃ options', cookerOptionPairs (cookerArguments pairs) options = some options' := by
  induction pairs generalizing options with
  | nil => exact ⟨options, rfl⟩
  | cons pair pairs ih =>
    have hnew : pair.1.text ∉ options.given.map Prod.fst := fun hmem =>
      (List.nodup_cons.mp hnodup).1 (List.map_append ▸ List.mem_append_right _ hmem)
    obtain ⟨middle, hfirst⟩ := cookerOption_accepts (hvalues pair List.mem_cons_self)
      (hnames pair List.mem_cons_self) hnew
    obtain ⟨-, hmiddle⟩ := cookerOption_given hfirst
    have hperm : (pairs.map cookerPair ++ middle.given).Perm
        ((pair.1.text, pair.2) :: (pairs.map cookerPair ++ options.given)) :=
      (hmiddle.append_left _).trans List.perm_middle
    obtain ⟨options', hoptions⟩ := ih
      (fun other hother => hvalues other (List.mem_cons_of_mem _ hother))
      (fun other hother => hnames other (List.mem_cons_of_mem _ hother))
      ((hperm.map Prod.fst).nodup_iff.mpr hnodup)
    exact ⟨options', Option.bind_eq_some_iff.mpr ⟨middle, hfirst, hoptions⟩⟩

theorem CookerOptions.given_job {options : CookerOptions} (h : options.given.Perm job.given) :
    options = ⟨some job.input, some job.assetPath, some job.output⟩ := by
  obtain ⟨input, assetPath, output⟩ := options
  have hmem : ∀ pair ∈ job.given, pair ∈ CookerOptions.given ⟨input, assetPath, output⟩ :=
    fun pair hpair => h.mem_iff.mpr hpair
  simp only [CookerJob.given, List.forall_mem_cons, CookerOptions.given, List.mem_append,
    List.mem_map, Option.mem_toList, Prod.mk.injEq] at hmem
  obtain ⟨hinput, hasset, houtput, -⟩ := hmem
  have hi : input = some job.input := by
    rcases hinput with ⟨_, h, -, rfl⟩ | ⟨_, -, h, -⟩ | ⟨_, -, h, -⟩
    · exact h
    · exact absurd h (by decide)
    · exact absurd h (by decide)
  have ha : assetPath = some job.assetPath := by
    rcases hasset with ⟨_, -, h, -⟩ | ⟨_, h, -, rfl⟩ | ⟨_, -, h, -⟩
    · exact absurd h (by decide)
    · exact h
    · exact absurd h (by decide)
  have ho : output = some job.output := by
    rcases houtput with ⟨_, -, h, -⟩ | ⟨_, -, h, -⟩ | ⟨_, h, -, rfl⟩
    · exact absurd h (by decide)
    · exact absurd h (by decide)
    · exact h
  rw [hi, ha, ho]

theorem cookerArguments_length (pairs : List (CString × CString)) :
    (cookerArguments pairs).length = 2 * pairs.length := by
  rw [cookerArguments, List.length_flatMap]
  simp [Nat.mul_comm]

theorem exists_cookerArguments {n : Nat} {values : List CString} (h : values.length = 2 * n) :
    ∃ pairs, values = cookerArguments pairs := by
  induction n generalizing values with
  | zero => exact ⟨[], List.eq_nil_of_length_eq_zero h⟩
  | succ n ih =>
    cases values with
    | nil => cases h
    | cons option values =>
      cases values with
      | nil => cases h
      | cons value rest =>
        have hrest : rest.length = 2 * n := by
          rw [List.length_cons, List.length_cons] at h
          omega
        obtain ⟨pairs, rfl⟩ := ih hrest
        exact ⟨(option, value) :: pairs, rfl⟩

theorem cookerArguments_seven (h : argv.length = 7) :
    ∃ program pairs, argv = program :: cookerArguments pairs := by
  cases argv with
  | nil => cases h
  | cons program values =>
    obtain ⟨pairs, rfl⟩ := exists_cookerArguments (n := 3) (Nat.succ.inj h)
    exact ⟨program, pairs, rfl⟩

structure CookerJob.GivenBy (job : CookerJob) (argv : List CString) : Prop where
  spelt : ∃ program pairs, argv = program :: cookerArguments pairs ∧
    (pairs.map cookerPair).Perm job.given
  input_ne : job.input.text ≠ []
  assetPath_ne : job.assetPath.text ≠ []
  output_ne : job.output.text ≠ []

theorem cookerParseOptions_iff : cookerParseOptions argv = some job ↔ job.GivenBy argv := by
  unfold cookerParseOptions
  constructor
  · intro h
    split at h
    · cases h
    next hlength =>
    obtain ⟨program, pairs, rfl⟩ := cookerArguments_seven (Decidable.not_not.mp hlength)
    obtain ⟨options, hoptions, h⟩ := Option.bind_eq_some_iff.mp h
    obtain ⟨input, hinput, h⟩ := Option.bind_eq_some_iff.mp h
    obtain ⟨assetPath, hasset, h⟩ := Option.bind_eq_some_iff.mp h
    obtain ⟨output, houtput, rfl⟩ := Option.map_eq_some_iff.mp h
    obtain ⟨hvalues, hperm⟩ := cookerOptionPairs_given hoptions
    obtain ⟨input', assetPath', output'⟩ := options
    cases hinput
    cases hasset
    cases houtput
    have hperm : (pairs.map cookerPair).Perm (CookerJob.given ⟨input, assetPath, output⟩) := by
      rw [show CookerOptions.given ⟨none, none, none⟩ = [] from rfl, List.append_nil] at hperm
      exact hperm.symm
    have hvalue : ∀ pair ∈ CookerJob.given ⟨input, assetPath, output⟩, pair.2.text ≠ [] := by
      intro pair hpair
      obtain ⟨source, hsource, rfl⟩ := List.mem_map.mp (hperm.mem_iff.mpr hpair)
      exact hvalues source hsource
    simp only [CookerJob.given, List.forall_mem_cons] at hvalue
    exact ⟨⟨program, pairs, rfl, hperm⟩, hvalue.1, hvalue.2.1, hvalue.2.2.1⟩
  · rintro ⟨⟨program, pairs, rfl, hperm⟩, hinput, hasset, houtput⟩
    have hlength : (program :: cookerArguments pairs).length = 7 := by
      have h := hperm.length_eq
      rw [List.length_map] at h
      rw [List.length_cons, cookerArguments_length, h]
      rfl
    have hvalue : ∀ pair ∈ job.given, pair.2.text ≠ [] := by
      simp [CookerJob.given, hinput, hasset, houtput]
    have hmem : ∀ pair ∈ pairs, cookerPair pair ∈ job.given := fun pair hpair =>
      hperm.mem_iff.mp (List.mem_map_of_mem hpair)
    have hnodup : ((pairs.map cookerPair ++
        CookerOptions.given ⟨none, none, none⟩).map Prod.fst).Nodup := by
      rw [show CookerOptions.given ⟨none, none, none⟩ = [] from rfl, List.append_nil]
      refine (hperm.map Prod.fst).nodup_iff.mpr ?_
      change [cookerInputOption, cookerAssetOption, cookerOutputOption].Nodup
      decide
    obtain ⟨options, hoptions⟩ := cookerOptionPairs_accepts
      (fun pair hpair => hvalue _ (hmem pair hpair))
      (fun pair hpair => List.mem_map_of_mem (f := Prod.fst) (hmem pair hpair)) hnodup
    obtain ⟨-, hgiven⟩ := cookerOptionPairs_given hoptions
    rw [show CookerOptions.given ⟨none, none, none⟩ = [] from rfl, List.append_nil] at hgiven
    rw [if_neg fun h => h hlength, List.tail_cons, hoptions,
      CookerOptions.given_job (hgiven.trans hperm)]
    rfl

end

end ChoonzMoba
