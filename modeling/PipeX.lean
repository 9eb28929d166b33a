import PipeX.Core.FrameLimits.Transform
import PipeX.Lib.Transition
import PipeX.Core.Plugin
import PipeX.Core.ValueCodec
import PipeX.Core.Retry.Delay
import PipeX.Core.Retry.TypedErrors
import PipeX.Core.FallbackTransform
import PipeX.Core.DataEngine.Accounting
import PipeX.Core.DataEngine.Tracking
import PipeX.Plugin.Encryption
import PipeX.Plugin.EncryptionFormat.ChunkedEncryption
import PipeX.Plugin.EncryptionFormat.RoundTrip
import PipeX.Plugin.EncryptionFormat.Authenticity
import PipeX.Plugin.KmsEncryption.Exactness
import PipeX.Plugin.KmsEncryption.KeyLifetime
import PipeX.Plugin.Worker.Acceptance
import PipeX.Plugin.Hashing.Agreement
import PipeX.Plugin.Worker.Lifecycle
import PipeX.Core.Controllers.BinaryInversion
import PipeX.Core.Controllers.ResultValidation
import PipeX.Core.Controllers.StreamAgreement
import PipeX.Core.Controllers.ObjectStreams
import PipeX.Core.Controllers.FileCancellation
import PipeX.Core.Controllers.Endpoint
import PipeX.Core.FrameLimits.Budget
import PipeX.Plugin.WireIntegers
import PipeX.Core.Controllers.FileTransfer
import PipeX.Core.Controllers.Packages
import PipeX.Plugin.BuiltIn
import PipeX.Lib.Trace
import PipeX.Plugin.EncryptionFormat.NonceUse
import PipeX.Core.TypedPipeline
import PipeX.Core.SecureFiles.AllowedRoot
import PipeX.Core.DataEngine.Config
import PipeX.Plugin.Worker.Options
