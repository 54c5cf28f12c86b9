import DdTrace.Ci.CommitObject
import DdTrace.Ci.RefCleaning

/-!
# The values of the CI environment

The published values, the setup of each provider, and `ReloadEnvironmentData` as a call to a class
whose static constructor makes the first one.

Source: `CIEnvironmentValues.cs`
-/

namespace DdTrace.Ci

open DdTrace.Lib

/-! ## The data -/

/-- What is known of the commit in the folder; the signature is not read here.
Source: `GitInfo.cs`, the properties of `GitInfo` -/
structure GitInfo where
  sourceRoot : Option String := none
  repository : Option String := none
  branch : Option String := none
  commit : Option String := none
  authorName : Option String := none
  authorEmail : Option String := none
  authorDate : Option DateTimeOffset := none
  committerName : Option String := none
  committerEmail : Option String := none
  committerDate : Option DateTimeOffset := none
  message : Option String := none
  deriving DecidableEq, Repr

/-- The published values, as the class has them before its static constructor. -/
structure Values extends Refs where
  isCI : Bool := false
  provider : Option String := none
  repository : Option String := none
  commit : Option String := none
  authorName : Option String := none
  authorEmail : Option String := none
  authorDate : Option DateTimeOffset := none
  committerName : Option String := none
  committerEmail : Option String := none
  committerDate : Option DateTimeOffset := none
  message : Option String := none
  sourceRoot : Option String := none
  pipelineId : Option String := none
  pipelineName : Option String := none
  pipelineNumber : Option String := none
  pipelineUrl : Option String := none
  jobUrl : Option String := none
  jobName : Option String := none
  stageName : Option String := none
  workspacePath : Option String := none
  deriving DecidableEq, Repr

/-- How a method ends, with the values it leaves. -/
inductive Outcome
  | returned (values : Values)
  | threw (exception : Exception) (values : Values)
  deriving DecidableEq, Repr

/-- The environment variables that are set. -/
abbrev Variables : Type := String → Option String

/-- What the runtime and the system give, for the whole process. -/
structure Platform where
  /-- `Environment.OSVersion.Platform` is `Unix` or `MacOSX`. -/
  unix : Bool
  /-- `ToLowerInvariant`, of a character. -/
  toLowerInvariant : Char → Char
  /-- An absolute URI that has user info, written without it. -/
  withoutUserInfo : String → Option String

/-- What one call finds. -/
structure Surroundings where
  env : Variables
  gitInfo : GitInfo := {}

/-! ## The providers -/

/-- Null is written as nothing. -/
def text (s : Option String) : String := s.getD ""

/-- The first text, or the second one if that is null or empty. -/
def orIfEmpty (s t : Option String) : Option String := if Texts.isNullOrEmpty s then t else s

/-- The first text, or the second one if that is null, empty or white space. -/
def orIfBlank (s t : Option String) : Option String := if Texts.isNullOrWhiteSpace s then t else s

/-- `Replace` of a text that may be null. -/
def replaceIn (s : Option String) (old new : String) : Option String :=
  s.map fun s => String.ofList (Texts.replace s.toList old.toList new.toList)

section Providers

variable (env : Variables) (values : Values)

/-- Source: `SetupTravisEnvironment` -/
def setupTravisEnvironment : Values :=
  let repoSlug := orIfEmpty (env "TRAVIS_PULL_REQUEST_SLUG") (env "TRAVIS_REPO_SLUG")
  let tag := env "TRAVIS_TAG"
  { values with
    isCI := true
    provider := some "travisci"
    repository := some ("https://github.com/" ++ text repoSlug ++ ".git")
    commit := env "TRAVIS_COMMIT"
    tag := tag
    branch :=
      if Texts.isNullOrEmpty tag then
        orIfBlank (env "TRAVIS_PULL_REQUEST_BRANCH") (env "TRAVIS_BRANCH")
      else values.branch
    sourceRoot := env "TRAVIS_BUILD_DIR"
    workspacePath := env "TRAVIS_BUILD_DIR"
    pipelineId := env "TRAVIS_BUILD_ID"
    pipelineNumber := env "TRAVIS_BUILD_NUMBER"
    pipelineName := repoSlug
    pipelineUrl := env "TRAVIS_BUILD_WEB_URL"
    jobUrl := env "TRAVIS_JOB_WEB_URL"
    message := env "TRAVIS_COMMIT_MESSAGE" }

/-- Source: `SetupCircleCiEnvironment` -/
def setupCircleCiEnvironment : Values :=
  let tag := env "CIRCLE_TAG"
  { values with
    isCI := true
    provider := some "circleci"
    repository := env "CIRCLE_REPOSITORY_URL"
    commit := env "CIRCLE_SHA1"
    tag := tag
    branch := if Texts.isNullOrEmpty tag then env "CIRCLE_BRANCH" else values.branch
    sourceRoot := env "CIRCLE_WORKING_DIRECTORY"
    workspacePath := env "CIRCLE_WORKING_DIRECTORY"
    pipelineId := env "CIRCLE_WORKFLOW_ID"
    pipelineName := env "CIRCLE_PROJECT_REPONAME"
    pipelineUrl :=
      some ("https://app.circleci.com/pipelines/workflows/" ++ text (env "CIRCLE_WORKFLOW_ID"))
    jobName := env "CIRCLE_JOB"
    jobUrl := env "CIRCLE_BUILD_URL" }

/-- Source: `SetupGitlabEnvironment` -/
def setupGitlabEnvironment : Values :=
  { values with
    isCI := true
    provider := some "gitlab"
    repository := env "CI_REPOSITORY_URL"
    commit := env "CI_COMMIT_SHA"
    branch := orIfBlank (env "CI_COMMIT_BRANCH") (env "CI_COMMIT_REF_NAME")
    tag := env "CI_COMMIT_TAG"
    sourceRoot := env "CI_PROJECT_DIR"
    workspacePath := env "CI_PROJECT_DIR"
    pipelineId := env "CI_PIPELINE_ID"
    pipelineName := env "CI_PROJECT_PATH"
    pipelineNumber := env "CI_PIPELINE_IID"
    pipelineUrl := replaceIn (env "CI_PIPELINE_URL") "/-/pipelines/" "/pipelines/"
    jobUrl := env "CI_JOB_URL"
    jobName := env "CI_JOB_NAME"
    stageName := env "CI_JOB_STAGE"
    message := env "CI_COMMIT_MESSAGE" }

/-- Source: `SetupAppveyorEnvironment` -/
def setupAppveyorEnvironment : Values :=
  let pipelineUrl := "https://ci.appveyor.com/project/" ++ text (env "APPVEYOR_REPO_NAME") ++
    "/builds/" ++ text (env "APPVEYOR_BUILD_ID")
  { values with
    isCI := true
    provider := some "appveyor"
    repository :=
      if env "APPVEYOR_REPO_PROVIDER" = some "github" then
        some ("https://github.com/" ++ text (env "APPVEYOR_REPO_NAME") ++ ".git")
      else env "APPVEYOR_REPO_NAME"
    commit := env "APPVEYOR_REPO_COMMIT"
    sourceRoot := env "APPVEYOR_BUILD_FOLDER"
    workspacePath := env "APPVEYOR_BUILD_FOLDER"
    pipelineId := env "APPVEYOR_BUILD_ID"
    pipelineName := env "APPVEYOR_REPO_NAME"
    pipelineNumber := env "APPVEYOR_BUILD_NUMBER"
    pipelineUrl := some pipelineUrl
    jobUrl := some pipelineUrl
    branch := orIfBlank (env "APPVEYOR_PULL_REQUEST_HEAD_REPO_BRANCH") (env "APPVEYOR_REPO_BRANCH")
    tag := env "APPVEYOR_REPO_TAG_NAME"
    message := env "APPVEYOR_REPO_COMMIT_MESSAGE_EXTENDED"
    authorName := env "APPVEYOR_REPO_COMMIT_AUTHOR"
    authorEmail := env "APPVEYOR_REPO_COMMIT_AUTHOR_EMAIL" }

/-- Source: `SetupAzurePipelinesEnvironment` -/
def setupAzurePipelinesEnvironment : Values :=
  let pipelineUrl := text (env "SYSTEM_TEAMFOUNDATIONSERVERURI") ++
    text (env "SYSTEM_TEAMPROJECTID") ++ "/_build/results?buildId=" ++ text (env "BUILD_BUILDID")
  let branch :=
    orIfBlank (env "SYSTEM_PULLREQUEST_SOURCEBRANCH") (env "BUILD_SOURCEBRANCH")
  { values with
    isCI := true
    provider := some "azurepipelines"
    sourceRoot := env "BUILD_SOURCESDIRECTORY"
    workspacePath := env "BUILD_SOURCESDIRECTORY"
    pipelineId := env "BUILD_BUILDID"
    pipelineName := env "BUILD_DEFINITIONNAME"
    pipelineNumber := env "BUILD_BUILDID"
    pipelineUrl := some pipelineUrl
    jobUrl := some (pipelineUrl ++ "&view=logs&j=" ++ text (env "SYSTEM_JOBID") ++ "&t=" ++
      text (env "SYSTEM_TASKINSTANCEID"))
    repository :=
      orIfBlank (env "SYSTEM_PULLREQUEST_SOURCEREPOSITORYURI") (env "BUILD_REPOSITORY_URI")
    commit := orIfBlank (env "SYSTEM_PULLREQUEST_SOURCECOMMITID") (env "BUILD_SOURCEVERSION")
    branch := orIfBlank branch (env "BUILD_SOURCEBRANCHNAME")
    message := env "BUILD_SOURCEVERSIONMESSAGE"
    authorName := env "BUILD_REQUESTEDFORID"
    authorEmail := env "BUILD_REQUESTEDFOREMAIL" }

/-- Source: `SetupBitbucketEnvironment` -/
def setupBitbucketEnvironment : Values :=
  let pipelineUrl := "https://bitbucket.org/" ++ text (env "BITBUCKET_REPO_FULL_NAME") ++
    "/addon/pipelines/home#!/results/" ++ text (env "BITBUCKET_BUILD_NUMBER")
  { values with
    isCI := true
    provider := some "bitbucket"
    repository := env "BITBUCKET_GIT_SSH_ORIGIN"
    commit := env "BITBUCKET_COMMIT"
    branch := env "BITBUCKET_BRANCH"
    tag := env "BITBUCKET_TAG"
    sourceRoot := env "BITBUCKET_CLONE_DIR"
    workspacePath := env "BITBUCKET_CLONE_DIR"
    pipelineId := replaceIn (replaceIn (env "BITBUCKET_PIPELINE_UUID") "\x7d" "") "\x7b" ""
    pipelineNumber := env "BITBUCKET_BUILD_NUMBER"
    pipelineName := env "BITBUCKET_REPO_FULL_NAME"
    pipelineUrl := some pipelineUrl
    jobUrl := some pipelineUrl }

/-- Source: `SetupTeamcityEnvironment` -/
def setupTeamcityEnvironment : Values :=
  { values with
    isCI := true
    provider := some "teamcity"
    repository := env "BUILD_VCS_URL"
    workspacePath := env "BUILD_VCS_URL"
    commit := env "BUILD_VCS_NUMBER"
    sourceRoot := env "BUILD_CHECKOUTDIR"
    pipelineId := env "BUILD_ID"
    pipelineNumber := env "BUILD_NUMBER"
    pipelineUrl :=
      match env "BUILD_ID", env "SERVER_URL" with
      | some pipelineId, some serverUrl =>
          some (serverUrl ++ "/viewLog.html?buildId=" ++ pipelineId)
      | _, _ => none }

/-- Source: `SetupBuildkiteEnvironment` -/
def setupBuildkiteEnvironment : Values :=
  { values with
    isCI := true
    provider := some "buildkite"
    repository := env "BUILDKITE_REPO"
    commit := env "BUILDKITE_COMMIT"
    branch := env "BUILDKITE_BRANCH"
    tag := env "BUILDKITE_TAG"
    sourceRoot := env "BUILDKITE_BUILD_CHECKOUT_PATH"
    workspacePath := env "BUILDKITE_BUILD_CHECKOUT_PATH"
    pipelineId := env "BUILDKITE_BUILD_ID"
    pipelineNumber := env "BUILDKITE_BUILD_NUMBER"
    pipelineName := env "BUILDKITE_PIPELINE_SLUG"
    pipelineUrl := env "BUILDKITE_BUILD_URL"
    jobUrl := some (text (env "BUILDKITE_BUILD_URL") ++ "#" ++ text (env "BUILDKITE_JOB_ID"))
    message := env "BUILDKITE_MESSAGE"
    authorName := env "BUILDKITE_BUILD_AUTHOR"
    authorEmail := env "BUILDKITE_BUILD_AUTHOR_EMAIL" }

/-- Source: `SetupBitriseEnvironment` -/
def setupBitriseEnvironment : Values :=
  { values with
    isCI := true
    provider := some "bitrise"
    repository := env "GIT_REPOSITORY_URL"
    commit := orIfBlank (env "BITRISE_GIT_COMMIT") (env "GIT_CLONE_COMMIT_HASH")
    branch := orIfBlank (env "BITRISEIO_GIT_BRANCH_DEST") (env "BITRISE_GIT_BRANCH")
    tag := env "BITRISE_GIT_TAG"
    sourceRoot := env "BITRISE_SOURCE_DIR"
    workspacePath := env "BITRISE_SOURCE_DIR"
    pipelineId := env "BITRISE_BUILD_SLUG"
    pipelineNumber := env "BITRISE_BUILD_NUMBER"
    pipelineName := env "BITRISE_TRIGGERED_WORKFLOW_ID"
    pipelineUrl := env "BITRISE_BUILD_URL"
    message := env "BITRISE_GIT_MESSAGE" }

/-- What is assigned before the reference is asked for.
Source: `SetupGithubActionsEnvironment`, its beginning -/
def beginGithubActions : Values :=
  { values with
    isCI := true
    provider := some "github"
    repository := some ("https://github.com/" ++ text (env "GITHUB_REPOSITORY") ++ ".git")
    commit := env "GITHUB_SHA" }

/-- Source: `SetupGithubActionsEnvironment` -/
def setupGithubActionsEnvironment : Outcome :=
  let values := beginGithubActions env values
  match orIfEmpty (env "GITHUB_HEAD_REF") (env "GITHUB_REF") with
  | none => .threw .nullReference values
  | some ghRef =>
      let tagged := Texts.contains ghRef.toList "tags".toList
      let pipelineUrl := "https://github.com/" ++ text (env "GITHUB_REPOSITORY") ++ "/commit/" ++
        text (env "GITHUB_SHA") ++ "/checks"
      .returned { values with
        tag := if tagged then some ghRef else values.tag
        branch := if tagged then values.branch else some ghRef
        sourceRoot := env "GITHUB_WORKSPACE"
        workspacePath := env "GITHUB_WORKSPACE"
        pipelineId := env "GITHUB_RUN_ID"
        pipelineNumber := env "GITHUB_RUN_NUMBER"
        pipelineName := env "GITHUB_WORKFLOW"
        pipelineUrl := some pipelineUrl
        jobUrl := some pipelineUrl }

end Providers

/-! ## Jenkins -/

/-- Source: `SetupJenkinsEnvironment`, where `GIT_BRANCH` is assigned -/
def jenkinsRefs (gitBranch : Option String) (refs : Refs) : Refs :=
  if Texts.contains (text gitBranch).toList "tags".toList then { refs with tag := gitBranch }
  else { refs with branch := gitBranch }

/-- Source: `SetupJenkinsEnvironment`, `jobNameNoBranch` -/
def jobNameNoBranch (branch : Option String) (pipelineName : String) : List Char :=
  match branch with
  | some branch => Texts.replace (Texts.trim pipelineName.toList) ('/' :: branch.toList) []
  | none => pipelineName.toList

/-- Source: `SetupJenkinsEnvironment`, the body of its loop -/
def readConfiguration (configKeyValue : List Char) : Except Exception (List Char × List Char) :=
  match (Texts.trim configKeyValue).splitOn '=' with
  | key :: value :: _ => .ok (key, value)
  | _ => .error .indexOutOfRange

/-- The entries of the dictionary, of which only the number is asked for.
Source: `SetupJenkinsEnvironment`, its loop -/
def readConfigurations (toLowerInvariant : Char → Char) (jobNameParts : List (List Char)) :
    Except Exception (List (List Char × List Char)) :=
  match jobNameParts with
  | _ :: configs :: _ =>
      if '=' ∈ configs then
        ((Texts.trim (configs.map toLowerInvariant)).splitOn ',').mapM readConfiguration
      else .ok []
  | _ => .ok []

/-- What is assigned before the name of the job is asked for.
Source: `SetupJenkinsEnvironment`, its beginning -/
def beginJenkins (env : Variables) (values : Values) : Values :=
  { values with
    isCI := true
    provider := some "jenkins"
    repository := env "GIT_URL"
    commit := env "GIT_COMMIT"
    toRefs := jenkinsRefs (env "GIT_BRANCH") values.toRefs
    sourceRoot := env "WORKSPACE"
    workspacePath := env "WORKSPACE"
    pipelineId := env "BUILD_TAG"
    pipelineNumber := env "BUILD_NUMBER"
    pipelineUrl := env "BUILD_URL" }

/-- Source: `SetupJenkinsEnvironment` -/
def setupJenkinsEnvironment (platform : Platform) (env : Variables) (values : Values) : Outcome :=
  let values := beginJenkins env values
  match env "JOB_NAME" with
  | none => .returned values
  | some pipelineName =>
      let values := { values with toRefs := cleanBranchAndTag values.toRefs }
      let jobName := jobNameNoBranch values.branch pipelineName
      let jobNameParts := jobName.splitOn '/'
      match readConfigurations platform.toLowerInvariant jobNameParts with
      | .error exception => .threw exception values
      | .ok configurations =>
          let pipelineName := if configurations.isEmpty then jobName else jobNameParts.headD []
          .returned { values with pipelineName := some (String.ofList pipelineName) }

/-! ## The call -/

/-- All values are reset but one.
Source: `ReloadEnvironmentData`, its beginning -/
def resetValues (values : Values) : Values := { isCI := values.isCI }

/-- Source: `ReloadEnvironmentData`, its last branch -/
def setupFromGit (gitInfo : GitInfo) (values : Values) : Values :=
  { values with
    branch := gitInfo.branch
    commit := gitInfo.commit
    repository := gitInfo.repository
    sourceRoot := gitInfo.sourceRoot
    workspacePath := gitInfo.sourceRoot }

/-- Source: `ReloadEnvironmentData`, its choice of a provider -/
def setupEnvironment (platform : Platform) (now : Surroundings) (values : Values) : Outcome :=
  let env := now.env
  if (env "TRAVIS").isSome then .returned (setupTravisEnvironment env values)
  else if (env "CIRCLECI").isSome then .returned (setupCircleCiEnvironment env values)
  else if (env "JENKINS_URL").isSome then setupJenkinsEnvironment platform env values
  else if (env "GITLAB_CI").isSome then .returned (setupGitlabEnvironment env values)
  else if (env "APPVEYOR").isSome then .returned (setupAppveyorEnvironment env values)
  else if (env "TF_BUILD").isSome then .returned (setupAzurePipelinesEnvironment env values)
  else if (env "BITBUCKET_COMMIT").isSome then .returned (setupBitbucketEnvironment env values)
  else if (env "GITHUB_SHA").isSome then setupGithubActionsEnvironment env values
  else if (env "TEAMCITY_VERSION").isSome then .returned (setupTeamcityEnvironment env values)
  else if (env "BUILDKITE").isSome then .returned (setupBuildkiteEnvironment env values)
  else if (env "BITRISE_BUILD_SLUG").isSome then .returned (setupBitriseEnvironment env values)
  else .returned (setupFromGit now.gitInfo values)

/-- Source: `ReloadEnvironmentData`, where the author, the committer and the message are added -/
def addGitInfo (gitInfo : GitInfo) (values : Values) : Values :=
  if gitInfo.commit = values.commit then
    { values with
      authorName := orIfEmpty values.authorName gitInfo.authorName
      authorEmail := orIfEmpty values.authorEmail gitInfo.authorEmail
      authorDate := values.authorDate.or gitInfo.authorDate
      committerName := orIfEmpty values.committerName gitInfo.committerName
      committerEmail := orIfEmpty values.committerEmail gitInfo.committerEmail
      committerDate := values.committerDate.or gitInfo.committerDate
      message := orIfEmpty values.message gitInfo.message }
  else values

/-- Source: `ReloadEnvironmentData`, where sensitive information is removed -/
def removeUserInfo (platform : Platform) (repository : Option String) : Option String :=
  (repository.bind platform.withoutUserInfo).or repository

/-- Source: `CIEnvironmentValues.cs`, `ExpandPath` -/
def expandPath (platform : Platform) (env : Variables) (path : Option String) : Option String :=
  path.map fun path =>
    if path = "~" ∨ "~/".toList <+: path.toList then
      text (if platform.unix then env "HOME" else env "USERPROFILE") ++
        String.ofList (path.toList.drop 1)
    else path

/-- Source: `ReloadEnvironmentData`, what follows the choice of a provider -/
def finishValues (platform : Platform) (now : Surroundings) (values : Values) : Values :=
  let values := addGitInfo now.gitInfo values
  { values with
    repository := removeUserInfo platform values.repository
    sourceRoot := expandPath platform now.env values.sourceRoot
    workspacePath := expandPath platform now.env values.workspacePath
    toRefs := cleanBranchAndTag values.toRefs }

/-- Source: `CIEnvironmentValues.cs`, `ReloadEnvironmentData` -/
def reloadValues (platform : Platform) (now : Surroundings) (values : Values) : Outcome :=
  match setupEnvironment platform now (resetValues values) with
  | .returned values => .returned (finishValues platform now values)
  | .threw exception values => .threw exception values

/-- The class, before and after its static constructor. -/
inductive ClassState
  | unused
  /-- The static constructor has thrown. -/
  | failed
  | ready (values : Values)
  deriving DecidableEq, Repr

/-- The first use of the class runs its static constructor.
Source: `CIEnvironmentValues.cs`, the static constructor -/
def useClass (platform : Platform) (now : Surroundings) : ClassState → ClassState
  | .unused =>
      match reloadValues platform now {} with
      | .returned values => .ready values
      | .threw _ _ => .failed
  | state => state

/-- A call, with the exception it throws. -/
def reloadEnvironmentData (platform : Platform) (state : ClassState) (now : Surroundings) :
    ClassState × Option Exception :=
  match useClass platform now state with
  | .ready values =>
      match reloadValues platform now values with
      | .returned values => (.ready values, none)
      | .threw exception values => (.ready values, some exception)
  | state => (state, some .typeInitialization)

end DdTrace.Ci
