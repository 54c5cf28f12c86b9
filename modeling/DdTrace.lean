import DdTrace.Lib.Run
import DdTrace.Tracing.SamplingPriority
import DdTrace.Tracing.ArrayBuilder
import DdTrace.Tracing.Tags
import DdTrace.Tracing.TraceContext
import DdTrace.Tracing.Conservation
import DdTrace.Propagation.SpanContextPropagator
import DdTrace.Tracing.SamplingDecision
import DdTrace.Agent.PendingTraces
import DdTrace.Agent.Buffers
import DdTrace.Lib.Ledger
import DdTrace.Agent.Accounting
import DdTrace.Agent.Watermarks
import DdTrace.Agent.AgentWriter
import DdTrace.Agent.Delivery
import DdTrace.Agent.FlushCompleteness
import DdTrace.Lib.ByteBuffer
import DdTrace.Lib.Retry
import DdTrace.Profiler.Opcodes
import DdTrace.Profiler.MethodBody
import DdTrace.Profiler.ILRewriter
import DdTrace.Profiler.ILCode
import DdTrace.Profiler.ILExport
import DdTrace.Profiler.ILRelaxation
import DdTrace.Agent.SpanPayload
import DdTrace.Profiler.LoadedProfiler
import DdTrace.Tracing.PartialFlush
import DdTrace.Propagation.Reinjection
import DdTrace.Agent.InactiveBuffer
import DdTrace.Lib.MessagePack
import DdTrace.Agent.MessagePackBinary
import DdTrace.Tracing.TagsTypes
import DdTrace.Agent.SpanFormatter
import DdTrace.Agent.SpanKeys
import DdTrace.Lib.Descent
import DdTrace.Profiler.SignatureGrammar
import DdTrace.Profiler.SignatureParser
import DdTrace.Profiler.MethodSignature
import DdTrace.Profiler.SignatureNames
import DdTrace.Profiler.StructuralNames
import DdTrace.Lib.ShortReads
import DdTrace.Lib.Outcomes
import DdTrace.HttpOverStreams.DatadogHttpClient
import DdTrace.HttpOverStreams.ResponseReader
import DdTrace.Lib.FixedWidth
import DdTrace.Ci.GitInfo
import DdTrace.Ci.PackIndex
import DdTrace.CallTarget.Continuations
import DdTrace.CallTarget.Transparency
import DdTrace.DuckTyping.Emit
import DdTrace.DuckTyping.ILHelpers
import DdTrace.DuckTyping.Reflection
import DdTrace.DuckTyping.Verifier
import DdTrace.Emit.DelegateCache
import DdTrace.Emit.MethodBuilder
import DdTrace.Agent.BufferGrowth
import DdTrace.Propagation.MessageBrokers
import DdTrace.Lib.JsonText
import DdTrace.Propagation.Sqs
import DdTrace.Emit.ObjectExtensions
import DdTrace.Ci.RefCleaning
import DdTrace.Ci.CIEnvironmentValues
import DdTrace.Ci.Detection
import DdTrace.Ci.GitConfig
import DdTrace.Ci.CommitObject
import DdTrace.Ci.CommitParsing
import DdTrace.Lib.RegexLanguage
import DdTrace.Lib.RegexSearch
import DdTrace.PlatformHelpers.ContainerMetadata
import DdTrace.DiagnosticListeners.RouteSimplification
import DdTrace.DuckTyping.MethodSelection
import DdTrace.Lib.StableInsertion
import DdTrace.Sampling.RuleBasedSampler
import DdTrace.Agent.KeepRate
import DdTrace.Sampling.RateLimiter
import DdTrace.Lib.FixedBuffers
import DdTrace.Profiler.CompressedData
import DdTrace.Profiler.StartupHook
import DdTrace.Tracing.TagsMap
import DdTrace.Profiler.CallTargetTokens
import DdTrace.Agent.FinishedSpans
import DdTrace.Lib.Skipping
import DdTrace.Profiler.TypeSignatures
import DdTrace.Profiler.SkippedTypes
import DdTrace.Profiler.AssemblyReferences
import DdTrace.Profiler.WrapperRefs
import DdTrace.Profiler.UnboxedReturn
import DdTrace.Profiler.ReplacedCalls
import DdTrace.Tracing.ScopeManager
import DdTrace.Tracing.ScopeEvents
import DdTrace.Lib.Dictionaries
import DdTrace.Sampling.DefaultSamplingRule
import DdTrace.Configuration.HttpStatusCodes
import DdTrace.Lib.Parts
import DdTrace.Lib.Utf16
import DdTrace.Util.UriHelpers
import DdTrace.ExtensionMethods.StringExtensions
import DdTrace.Configuration.TracerSettings
import DdTrace.Agent.TracingProcessManager
import DdTrace.Lib.Backtracking
import DdTrace.Sampling.CustomSamplingRule
import DdTrace.Profiler.ILProgram
import DdTrace.Profiler.ILRoundTrip
import DdTrace.Profiler.ILEdits
import DdTrace.Lib.Levels
import DdTrace.Profiler.StackDepth
import DdTrace.Lib.Programs
import DdTrace.Profiler.TokenCalls
import DdTrace.Profiler.TokenOutcomes
import DdTrace.Profiler.RewriterCallback
import DdTrace.Profiler.RewrittenBody
import DdTrace.Lib.SideBySide
import DdTrace.Tracing.Process
import DdTrace.Profiler.RejitHandler
import DdTrace.Lib.Simulation
import DdTrace.Profiler.ILMachine
import DdTrace.Profiler.RewrittenClauses
import DdTrace.Profiler.RewrittenSteps
import DdTrace.Profiler.RewrittenRuns
import DdTrace.Profiler.GuardedCalls
