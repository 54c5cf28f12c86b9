import DdTrace.Ci.CIEnvironmentValues
import DdTrace.Lib.Outcomes

/-!
# CI detection over any number of calls

* `setupEnvironment_eq`: the choice of a provider as a search in a list.
* `returns_iff`: the environments that a call gets through.
* `ready_after`: what is left of earlier calls: whether one of them has seen a provider.
* `memoryless_iff`: when a call leaves what a first call would leave.

Source: `CIEnvironmentValues.cs`
-/

namespace DdTrace.Ci

open DdTrace.Lib

/-! ## The condition -/

/-- The variables that stand for the providers, in the order in which they are asked for. -/
def providerVariables : List String :=
  ["TRAVIS", "CIRCLECI", "JENKINS_URL", "GITLAB_CI", "APPVEYOR", "TF_BUILD", "BITBUCKET_COMMIT",
    "GITHUB_SHA", "TEAMCITY_VERSION", "BUILDKITE", "BITRISE_BUILD_SLUG"]

/-- The first of them that is set. -/
def chosenProvider (env : Variables) : Option String :=
  providerVariables.find? fun name => (env name).isSome

/-- One of them is set. -/
def Detected (env : Variables) : Prop := ∃ name ∈ providerVariables, (env name).isSome = true

/-- The parts of the name of a Jenkins job, without the branch. -/
def jenkinsJobParts (env : Variables) (name : String) : List (List Char) :=
  (jobNameNoBranch (cleanBranchAndTag (jenkinsRefs (env "GIT_BRANCH") {})).branch name).splitOn '/'

/-- The environments that a call does not get through. -/
inductive Fails (platform : Platform) (env : Variables) : Prop
  /-- GitHub, without a reference. -/
  | github (chosen : chosenProvider env = some "GITHUB_SHA")
      (headRef : Texts.isNullOrEmpty (env "GITHUB_HEAD_REF") = true)
      (ref : env "GITHUB_REF" = none)
  /-- Jenkins, with a job where some configurations have a value and some do not. -/
  | jenkins {name : String} {configs : List Char} (chosen : chosenProvider env = some "JENKINS_URL")
      (job : env "JOB_NAME" = some name) (part : (jenkinsJobParts env name)[1]? = some configs)
      (keyed : '=' ∈ configs)
      (bare : ∃ piece ∈ (Texts.trim (configs.map platform.toLowerInvariant)).splitOn ',', '=' ∉ piece)

/-- The class after some calls. -/
def stateAfter (platform : Platform) (earlier : List Surroundings) : ClassState :=
  earlier.foldl (fun state now => (reloadEnvironmentData platform state now).1) .unused

/-- A call after some others returns, and leaves the values that it leaves as the first one. -/
def Memoryless (platform : Platform) (earlier : List Surroundings) (now : Surroundings) : Prop :=
  ∃ values, reloadEnvironmentData platform (stateAfter platform earlier) now = (.ready values, none) ∧
    reloadEnvironmentData platform .unused now = (.ready values, none)

/-! ## The configurations of a job -/

/-- A configuration is read exactly if it has a value. -/
theorem readConfiguration_ok_iff (piece : List Char) :
    (∃ entry, readConfiguration piece = .ok entry) ↔ '=' ∈ piece := by
  have hmem : '=' ∈ Texts.trim piece ↔ '=' ∈ piece := Texts.mem_trim_iff rfl
  rw [← hmem, readConfiguration]
  generalize Texts.trim piece = s
  constructor
  · intro h
    by_contra hnot
    rw [List.splitOn_eq_singleton hnot] at h
    obtain ⟨entry, hentry⟩ := h
    cases hentry
  · intro h
    obtain ⟨key, after, rfl, hkey⟩ := List.eq_append_cons_of_mem h
    rw [List.splitOn_append_cons_self_of_not_mem hkey]
    obtain ⟨value, others, hvalue⟩ := List.exists_cons_of_ne_nil (List.splitOn_ne_nil '=' after)
    rw [hvalue]
    exact ⟨(key, value), rfl⟩

/-- The configurations of a job are read unless one that should have a value has none. -/
theorem readConfigurations_ok_iff (lower : Char → Char) (parts : List (List Char)) :
    (∃ entries, readConfigurations lower parts = .ok entries) ↔
      ∀ configs, parts[1]? = some configs → '=' ∈ configs →
        ∀ piece ∈ (Texts.trim (configs.map lower)).splitOn ',', '=' ∈ piece := by
  unfold readConfigurations
  split
  case h_1 first configs others =>
    have hpart : (first :: configs :: others)[1]? = some configs := rfl
    by_cases hkeyed : '=' ∈ configs
    · rw [if_pos hkeyed, Outcomes.mapM_ok_iff]
      simp only [readConfiguration_ok_iff, hpart, Option.some.injEq, forall_eq', hkeyed,
        forall_const]
    · rw [if_neg hkeyed]
      apply iff_of_true ⟨[], rfl⟩
      intro configs' hconfigs hkeyed'
      rw [hpart] at hconfigs
      cases hconfigs
      exact absurd hkeyed' hkeyed
  case h_2 hshort =>
    apply iff_of_true ⟨[], rfl⟩
    intro configs hconfigs
    match parts, hshort, hconfigs with
    | first :: configs :: others, hshort, _ => exact absurd rfl (hshort first configs others)

/-! ## The choice of a provider -/

/-- The values that a method leaves. -/
def Outcome.values : Outcome → Values
  | .returned values => values
  | .threw _ values => values

/-- The same values but for `IsCI`. -/
def Values.setIsCI (values : Values) (isCI : Bool) : Values := { values with isCI := isCI }

@[simp] theorem Values.isCI_setIsCI (values : Values) (isCI : Bool) :
    (values.setIsCI isCI).isCI = isCI := rfl

/-- The method returns. -/
def Outcome.Returns : Outcome → Prop
  | .returned _ => True
  | .threw _ _ => False

/-- The providers with their setup. -/
def setups : List (String × (Platform → Variables → Values → Outcome)) :=
  [("TRAVIS", fun _ env values => .returned (setupTravisEnvironment env values)),
    ("CIRCLECI", fun _ env values => .returned (setupCircleCiEnvironment env values)),
    ("JENKINS_URL", setupJenkinsEnvironment),
    ("GITLAB_CI", fun _ env values => .returned (setupGitlabEnvironment env values)),
    ("APPVEYOR", fun _ env values => .returned (setupAppveyorEnvironment env values)),
    ("TF_BUILD", fun _ env values => .returned (setupAzurePipelinesEnvironment env values)),
    ("BITBUCKET_COMMIT", fun _ env values => .returned (setupBitbucketEnvironment env values)),
    ("GITHUB_SHA", fun _ env values => setupGithubActionsEnvironment env values),
    ("TEAMCITY_VERSION", fun _ env values => .returned (setupTeamcityEnvironment env values)),
    ("BUILDKITE", fun _ env values => .returned (setupBuildkiteEnvironment env values)),
    ("BITRISE_BUILD_SLUG", fun _ env values => .returned (setupBitriseEnvironment env values))]

/-- The first provider whose variable is set. -/
def findSetup (env : Variables) : Option (String × (Platform → Variables → Values → Outcome)) :=
  setups.find? fun setup => (env setup.1).isSome

theorem chosenProvider_eq (env : Variables) :
    chosenProvider env = (findSetup env).map Prod.fst := by
  have hnames : providerVariables = setups.map Prod.fst := rfl
  rw [chosenProvider, hnames, List.find?_map]
  rfl

/-- **The choice of a provider.** -/
theorem setupEnvironment_eq (platform : Platform) (now : Surroundings) (values : Values) :
    setupEnvironment platform now values =
      match findSetup now.env with
      | some setup => setup.2 platform now.env values
      | none => .returned (setupFromGit now.gitInfo values) := by
  have hcons (setup : String × (Platform → Variables → Values → Outcome))
      (rest : List (String × (Platform → Variables → Values → Outcome))) :
      (match (setup :: rest).find? fun setup => (now.env setup.1).isSome with
        | some setup => setup.2 platform now.env values
        | none => .returned (setupFromGit now.gitInfo values)) =
      if (now.env setup.1).isSome then setup.2 platform now.env values
      else
        match rest.find? fun setup => (now.env setup.1).isSome with
        | some setup => setup.2 platform now.env values
        | none => .returned (setupFromGit now.gitInfo values) := by
    rw [List.find?_cons]
    cases (now.env setup.1).isSome with
    | true => rfl
    | false => rfl
  unfold setupEnvironment findSetup setups
  simp only [hcons, List.find?_nil]

theorem mem_setups_of_find {env : Variables}
    {setup : String × (Platform → Variables → Values → Outcome)}
    (h : findSetup env = some setup) : setup ∈ setups := List.mem_of_find?_eq_some h

theorem detected_iff (env : Variables) : Detected env ↔ (chosenProvider env).isSome = true :=
  List.find?_isSome.symm

/-! ## What a setup does -/

/-- A provider sets `IsCI`, also where it throws. -/
theorem isCI_setup : ∀ setup ∈ setups, ∀ platform env values,
    (setup.2 platform env values).values.isCI = true := by
  have hjenkins (platform : Platform) (env : Variables) (values : Values) :
      (setupJenkinsEnvironment platform env values).values.isCI = true := by
    unfold setupJenkinsEnvironment
    dsimp only
    split
    · rfl
    · split <;> rfl
  have hgithub (env : Variables) (values : Values) :
      (setupGithubActionsEnvironment env values).values.isCI = true := by
    unfold setupGithubActionsEnvironment
    dsimp only
    split <;> rfl
  simp only [setups, List.forall_mem_cons]
  exact ⟨fun _ _ _ => rfl, fun _ _ _ => rfl, hjenkins, fun _ _ _ => rfl, fun _ _ _ => rfl,
    fun _ _ _ => rfl, fun _ _ _ => rfl, fun _ => hgithub, fun _ _ _ => rfl, fun _ _ _ => rfl,
    fun _ _ _ => rfl, List.forall_mem_nil _⟩

/-- A provider does not read `IsCI`. -/
theorem setup_forgets : ∀ setup ∈ setups, ∀ platform env values (isCI : Bool),
    setup.2 platform env (values.setIsCI isCI) = setup.2 platform env values := by
  simp only [setups, List.forall_mem_cons]
  exact ⟨fun _ _ _ _ => rfl, fun _ _ _ _ => rfl, fun _ _ _ _ => rfl, fun _ _ _ _ => rfl,
    fun _ _ _ _ => rfl, fun _ _ _ _ => rfl, fun _ _ _ _ => rfl, fun _ _ _ _ => rfl,
    fun _ _ _ _ => rfl, fun _ _ _ _ => rfl, fun _ _ _ _ => rfl, List.forall_mem_nil _⟩

/-- Only two providers throw. -/
theorem returns_setup : ∀ setup ∈ setups, setup.1 ≠ "JENKINS_URL" → setup.1 ≠ "GITHUB_SHA" →
    ∀ platform env values, (setup.2 platform env values).Returns := by
  simp only [setups, List.forall_mem_cons]
  exact ⟨fun _ _ _ _ _ => trivial, fun _ _ _ _ _ => trivial, fun h => absurd rfl h,
    fun _ _ _ _ _ => trivial, fun _ _ _ _ _ => trivial, fun _ _ _ _ _ => trivial,
    fun _ _ _ _ _ => trivial, fun _ h => absurd rfl h, fun _ _ _ _ _ => trivial,
    fun _ _ _ _ _ => trivial, fun _ _ _ _ _ => trivial, List.forall_mem_nil _⟩

theorem setup_of_jenkins : ∀ setup ∈ setups, setup.1 = "JENKINS_URL" →
    setup.2 = setupJenkinsEnvironment := by
  simp [setups]

theorem setup_of_github : ∀ setup ∈ setups, setup.1 = "GITHUB_SHA" →
    setup.2 = fun _ env values => setupGithubActionsEnvironment env values := by
  simp [setups]

/-- Jenkins: the name of the job is there with readable configurations, or is not there. -/
theorem returns_jenkins_iff (platform : Platform) (env : Variables) (values : Values) :
    (setupJenkinsEnvironment platform env values).Returns ↔
      ∀ name, env "JOB_NAME" = some name →
        ∃ entries, readConfigurations platform.toLowerInvariant
          ((jobNameNoBranch (cleanBranchAndTag (jenkinsRefs (env "GIT_BRANCH") values.toRefs)).branch
            name).splitOn '/') = .ok entries := by
  unfold setupJenkinsEnvironment
  cases hjob : env "JOB_NAME" with
  | none =>
      apply iff_of_true trivial
      intro name hname
      cases hname
  | some name =>
      have hrefs : (beginJenkins env values).toRefs =
          jenkinsRefs (env "GIT_BRANCH") values.toRefs := rfl
      simp only [Option.some.injEq, forall_eq', hrefs]
      cases readConfigurations platform.toLowerInvariant
          ((jobNameNoBranch (cleanBranchAndTag (jenkinsRefs (env "GIT_BRANCH") values.toRefs)).branch
            name).splitOn '/') with
      | error exception =>
          apply iff_of_false not_false
          rintro ⟨entries, hentries⟩
          cases hentries
      | ok entries => exact iff_of_true trivial ⟨entries, rfl⟩

/-- GitHub: one of the two references is there. -/
theorem returns_github_iff (env : Variables) (values : Values) :
    (setupGithubActionsEnvironment env values).Returns ↔
      ¬(Texts.isNullOrEmpty (env "GITHUB_HEAD_REF") = true ∧ env "GITHUB_REF" = none) := by
  have hnone : orIfEmpty (env "GITHUB_HEAD_REF") (env "GITHUB_REF") = none ↔
      Texts.isNullOrEmpty (env "GITHUB_HEAD_REF") = true ∧ env "GITHUB_REF" = none := by
    unfold orIfEmpty
    split
    case isTrue hempty => exact ⟨fun h => ⟨hempty, h⟩, fun h => h.2⟩
    case isFalse hempty =>
      apply iff_of_false
      · intro h
        rw [h] at hempty
        exact hempty rfl
      · intro h
        exact hempty h.1
  rw [← hnone]
  unfold setupGithubActionsEnvironment
  cases orIfEmpty (env "GITHUB_HEAD_REF") (env "GITHUB_REF") with
  | none => exact iff_of_false not_false (not_not_intro rfl)
  | some ghRef => exact iff_of_true trivial (Option.some_ne_none ghRef)

/-- **Which environments a setup gets through.** -/
theorem setupEnvironment_returns_iff (platform : Platform) (now : Surroundings) (isCI : Bool) :
    (setupEnvironment platform now { isCI := isCI }).Returns ↔ ¬Fails platform now.env := by
  rw [setupEnvironment_eq]
  have hchosen := chosenProvider_eq now.env
  cases hfind : findSetup now.env with
  | none =>
      rw [hfind] at hchosen
      apply iff_of_true trivial
      rintro (⟨hgithub, -, -⟩ | ⟨hjenkins, -, -, -, -⟩)
      · rw [hchosen] at hgithub
        cases hgithub
      · rw [hchosen] at hjenkins
        cases hjenkins
  | some setup =>
      have hmem := mem_setups_of_find hfind
      rw [hfind, Option.map_some] at hchosen
      dsimp only
      by_cases hjenkins : setup.1 = "JENKINS_URL"
      · rw [setup_of_jenkins setup hmem hjenkins, returns_jenkins_iff]
        simp only [readConfigurations_ok_iff]
        rw [hjenkins] at hchosen
        constructor
        · rintro h (⟨hgithub, -, -⟩ | ⟨-, hjob, hpart, hkeyed, piece, hpiece, hbare⟩)
          · rw [hchosen] at hgithub
            exact absurd (Option.some.inj hgithub) (by decide)
          · exact hbare (h _ hjob _ hpart hkeyed piece hpiece)
        · intro h name hjob configs hpart hkeyed piece hpiece
          by_contra hbare
          exact h (.jenkins hchosen hjob hpart hkeyed ⟨piece, hpiece, hbare⟩)
      · by_cases hgithub : setup.1 = "GITHUB_SHA"
        · rw [setup_of_github setup hmem hgithub, returns_github_iff, not_iff_not]
          rw [hgithub] at hchosen
          constructor
          · rintro ⟨hhead, href⟩
            exact .github hchosen hhead href
          · rintro (⟨-, hhead, href⟩ | ⟨hother, -, -, -, -⟩)
            · exact ⟨hhead, href⟩
            · rw [hchosen] at hother
              exact absurd (Option.some.inj hother) (by decide)
        · apply iff_of_true (returns_setup setup hmem hjenkins hgithub _ _ _)
          rintro (⟨hother, -, -⟩ | ⟨hother, -, -, -, -⟩)
          · rw [hchosen] at hother
            exact hgithub (Option.some.inj hother)
          · rw [hchosen] at hother
            exact hjenkins (Option.some.inj hother)

/-! ## One call -/

/-- What a call leaves, but for `IsCI`, does not come from the values before it. -/
theorem reloadValues_of_detected (platform : Platform) {now : Surroundings}
    (h : Detected now.env) (values : Values) :
    reloadValues platform now values = reloadValues platform now {} := by
  have hsetup : setupEnvironment platform now (resetValues values) =
      setupEnvironment platform now (resetValues {}) := by
    rw [setupEnvironment_eq, setupEnvironment_eq]
    cases hfind : findSetup now.env with
    | none =>
        rw [detected_iff, chosenProvider_eq, hfind] at h
        cases h
    | some setup =>
        exact setup_forgets setup (mem_setups_of_find hfind) platform now.env {} values.isCI
  rw [reloadValues, hsetup]
  rfl

/-- The values that a call leaves where there is no provider. -/
def gitValues (platform : Platform) (now : Surroundings) : Values :=
  finishValues platform now (setupFromGit now.gitInfo {})

theorem finishValues_isCI (platform : Platform) (now : Surroundings) (values : Values)
    (isCI : Bool) :
    finishValues platform now (values.setIsCI isCI) =
      (finishValues platform now values).setIsCI isCI := by
  unfold finishValues addGitInfo
  by_cases hcommit : now.gitInfo.commit = values.commit
  · have hcommit' : now.gitInfo.commit = (values.setIsCI isCI).commit := hcommit
    rw [if_pos hcommit, if_pos hcommit']
    rfl
  · have hcommit' : ¬now.gitInfo.commit = (values.setIsCI isCI).commit := hcommit
    rw [if_neg hcommit, if_neg hcommit']
    rfl

theorem isCI_finishValues (platform : Platform) (now : Surroundings) (values : Values) :
    (finishValues platform now values).isCI = values.isCI := by
  unfold finishValues addGitInfo
  dsimp only
  split <;> rfl

/-- Without a provider, `IsCI` stays. -/
theorem reloadValues_of_not_detected (platform : Platform) {now : Surroundings}
    (h : ¬Detected now.env) (values : Values) :
    reloadValues platform now values =
      .returned ((gitValues platform now).setIsCI values.isCI) := by
  have hfind : findSetup now.env = none := by
    rw [detected_iff, chosenProvider_eq, Option.isSome_map] at h
    exact Option.not_isSome_iff_eq_none.mp h
  have hsetup : setupEnvironment platform now (resetValues values) =
      .returned ((setupFromGit now.gitInfo {}).setIsCI values.isCI) := by
    rw [setupEnvironment_eq, hfind]
    rfl
  rw [reloadValues, hsetup, gitValues, ← finishValues_isCI]

/-- **`IsCI` after a call.** -/
theorem isCI_reloadValues (platform : Platform) (now : Surroundings) (values : Values) :
    (reloadValues platform now values).values.isCI = true ↔
      values.isCI = true ∨ Detected now.env := by
  by_cases hdetected : Detected now.env
  · apply iff_of_true _ (.inr hdetected)
    have hsetup : (setupEnvironment platform now (resetValues values)).values.isCI = true := by
      rw [setupEnvironment_eq]
      cases hfind : findSetup now.env with
      | none =>
          rw [detected_iff, chosenProvider_eq, hfind] at hdetected
          cases hdetected
      | some setup => exact isCI_setup setup (mem_setups_of_find hfind) _ _ _
    unfold reloadValues
    cases hrun : setupEnvironment platform now (resetValues values) with
    | returned values' =>
        rw [hrun] at hsetup
        exact (isCI_finishValues platform now values').trans hsetup
    | threw exception values' =>
        rw [hrun] at hsetup
        exact hsetup
  · rw [reloadValues_of_not_detected platform hdetected, or_iff_left hdetected]
    rfl

/-- **Which environments a call gets through.** -/
theorem returns_iff (platform : Platform) (now : Surroundings) (values : Values) :
    (reloadValues platform now values).Returns ↔ ¬Fails platform now.env := by
  rw [← setupEnvironment_returns_iff platform now values.isCI]
  unfold reloadValues
  change Outcome.Returns (match setupEnvironment platform now { isCI := values.isCI } with
    | .returned values => _
    | .threw exception values => _) ↔ _
  cases setupEnvironment platform now { isCI := values.isCI } with
  | returned values' => exact Iff.rfl
  | threw exception values' => exact Iff.rfl

/-- A call that is the first one returns what the static constructor has left. -/
theorem first_call (platform : Platform) {now : Surroundings} (h : ¬Fails platform now.env) :
    ∃ values, reloadValues platform now {} = .returned values ∧
      reloadEnvironmentData platform .unused now = (.ready values, none) := by
  have hreturns := (returns_iff platform now {}).mpr h
  cases hrun : reloadValues platform now {} with
  | threw exception values =>
      rw [hrun] at hreturns
      cases hreturns
  | returned values =>
      refine ⟨values, rfl, ?_⟩
      have hagain : reloadValues platform now values = .returned values := by
        by_cases hdetected : Detected now.env
        · rw [reloadValues_of_detected platform hdetected, hrun]
        · have hsame := (reloadValues_of_not_detected platform hdetected {}).symm.trans hrun
          have hvalues := Outcome.returned.inj hsame
          rw [reloadValues_of_not_detected platform hdetected, ← hvalues, Values.isCI_setIsCI]
      simp only [reloadEnvironmentData, useClass, hrun, hagain]

theorem first_call_of_fails (platform : Platform) {now : Surroundings}
    (h : Fails platform now.env) :
    reloadEnvironmentData platform .unused now = (.failed, some .typeInitialization) := by
  cases hrun : reloadValues platform now {} with
  | threw exception values => simp only [reloadEnvironmentData, useClass, hrun]
  | returned values =>
      have hreturns : (reloadValues platform now {}).Returns := by
        rw [hrun]
        trivial
      exact absurd h ((returns_iff platform now {}).mp hreturns)

/-- Another call leaves the class usable, whether it throws or not. -/
theorem call_ready (platform : Platform) (now : Surroundings) (values : Values) :
    (reloadEnvironmentData platform (.ready values) now).1 =
      .ready (reloadValues platform now values).values := by
  unfold reloadEnvironmentData useClass
  dsimp only
  cases reloadValues platform now values with
  | returned values' => rfl
  | threw exception values' => rfl

theorem call_ready_eq_iff (platform : Platform) (now : Surroundings) (values values' : Values) :
    reloadEnvironmentData platform (.ready values) now = (.ready values', none) ↔
      reloadValues platform now values = .returned values' := by
  unfold reloadEnvironmentData useClass
  dsimp only
  cases reloadValues platform now values with
  | returned values'' =>
      constructor
      · intro h
        cases h
        rfl
      · intro h
        cases h
        rfl
  | threw exception values'' =>
      apply iff_of_false
      · intro h
        cases h
      · intro h
        cases h

/-! ## Any number of calls -/

theorem ready_foldl (platform : Platform) (calls : List Surroundings) (values : Values) :
    ∃ values', calls.foldl (fun state now => (reloadEnvironmentData platform state now).1)
        (.ready values) = .ready values' ∧
      (values'.isCI = true ↔ values.isCI = true ∨ ∃ now ∈ calls, Detected now.env) := by
  induction calls generalizing values with
  | nil => exact ⟨values, rfl, by simp⟩
  | cons now calls ih =>
      obtain ⟨values', hrun, hisCI⟩ := ih (reloadValues platform now values).values
      refine ⟨values', ?_, ?_⟩
      · rw [List.foldl_cons, call_ready, hrun]
      · rw [hisCI, isCI_reloadValues, or_assoc, List.exists_mem_cons_iff]

theorem failed_foldl (platform : Platform) (calls : List Surroundings) :
    calls.foldl (fun state now => (reloadEnvironmentData platform state now).1) .failed =
      .failed := by
  induction calls with
  | nil => rfl
  | cons now calls ih => exact ih

/-- **What is left of earlier calls.** -/
theorem ready_after (platform : Platform) {first : Surroundings} (rest : List Surroundings)
    (h : ¬Fails platform first.env) :
    ∃ values, stateAfter platform (first :: rest) = .ready values ∧
      (values.isCI = true ↔ ∃ now ∈ first :: rest, Detected now.env) := by
  obtain ⟨values, hvalues, hcall⟩ := first_call platform h
  obtain ⟨values', hrun, hisCI⟩ := ready_foldl platform rest values
  refine ⟨values', ?_, ?_⟩
  · rw [stateAfter, List.foldl_cons, hcall, hrun]
  · have hfirst := isCI_reloadValues platform first {}
    rw [hvalues] at hfirst
    change values.isCI = true ↔ false = true ∨ Detected first.env at hfirst
    rw [hisCI, hfirst, List.exists_mem_cons_iff]
    simp

/-- **CI detection.** A call leaves what a first call would leave, exactly if neither it nor the
static constructor throws, and no earlier call has seen a provider where it sees none. -/
theorem memoryless_iff (platform : Platform) (earlier : List Surroundings) (now : Surroundings) :
    Memoryless platform earlier now ↔
      ¬Fails platform now.env ∧ (∀ first ∈ earlier.head?, ¬Fails platform first.env) ∧
        (Detected now.env ∨ ∀ before ∈ earlier, ¬Detected before.env) := by
  by_cases hfails : Fails platform now.env
  · apply iff_of_false _ fun h => h.1 hfails
    rintro ⟨values, -, hfirst⟩
    rw [first_call_of_fails platform hfails] at hfirst
    cases hfirst
  · obtain ⟨values, hvalues, hcall⟩ := first_call platform hfails
    cases earlier with
    | nil =>
        apply iff_of_true ⟨values, hcall, hcall⟩
        exact ⟨hfails, by simp, .inr (List.forall_mem_nil _)⟩
    | cons first rest =>
        by_cases hfirst : Fails platform first.env
        · apply iff_of_false
          · rintro ⟨values', hagain, -⟩
            rw [stateAfter, List.foldl_cons, first_call_of_fails platform hfirst,
              failed_foldl] at hagain
            cases hagain
          · intro h
            exact h.2.1 first rfl hfirst
        · obtain ⟨before, hafter, hisCI⟩ := ready_after platform rest hfirst
          have hmemory : Memoryless platform (first :: rest) now ↔
              reloadValues platform now before = .returned values := by
            rw [Memoryless, hafter]
            simp only [call_ready_eq_iff, hcall, Prod.mk.injEq, ClassState.ready.injEq, and_true]
            constructor
            · rintro ⟨values', hagain, rfl⟩
              exact hagain
            · intro hagain
              exact ⟨values, hagain, rfl⟩
          rw [hmemory]
          by_cases hdetected : Detected now.env
          · rw [reloadValues_of_detected platform hdetected]
            exact iff_of_true hvalues ⟨hfails, by simpa using hfirst, .inl hdetected⟩
          · -- the two results differ in `IsCI` alone
            have hclean : before.isCI = false ↔ ∀ now ∈ first :: rest, ¬Detected now.env := by
              rw [← Bool.not_eq_true, hisCI]
              push Not
              exact Iff.rfl
            rw [← hvalues, reloadValues_of_not_detected platform hdetected,
              reloadValues_of_not_detected platform hdetected, Outcome.returned.injEq, ← hclean]
            constructor
            · intro h
              exact ⟨hfails, by simpa using hfirst, .inr (congrArg Values.isCI h)⟩
            · rintro ⟨-, -, h⟩
              rw [h.resolve_left hdetected]

/-- The platform of the runs below: lower-casing of the letters of ASCII, and no user info. -/
def plainPlatform : Platform where
  unix := true
  toLowerInvariant := Char.toLower
  withoutUserInfo := fun _ => none

/-- An environment with these variables. -/
def variablesOf (entries : List (String × String)) : Variables := fun name => entries.lookup name

/-- After a call that has seen Travis, `IsCI` stays set. -/
theorem not_memoryless_after_travis :
    ¬Memoryless plainPlatform [⟨variablesOf [("TRAVIS", "true")], {}⟩] ⟨variablesOf [], {}⟩ := by
  rintro ⟨values, hagain, hfirst⟩
  exact absurd (hagain.trans hfirst.symm) (by decide)

end DdTrace.Ci
