import LayeredEnv.Main
import LayeredEnv.Proofs.EnvFile.Concatenation
import LayeredEnv.Proofs.EnvFile.DoubleQuoted
import LayeredEnv.Proofs.EnvFile.LiteralQuoted
import LayeredEnv.Proofs.Json.Overlay
import LayeredEnv.Proofs.Loading.Alias
import LayeredEnv.Proofs.Loading.Effect
import LayeredEnv.Proofs.Loading.LineOrder
import LayeredEnv.Proofs.Loading.Priority
import LayeredEnv.Proofs.Loading.Purge
import LayeredEnv.Proofs.Loading.Runs
import LayeredEnv.Proofs.Loading.Selection
import LayeredEnv.Proofs.Naming.Composition
import LayeredEnv.Proofs.Value.Closure
import LayeredEnv.Proofs.Json.Layers
import LayeredEnv.Proofs.Loading.Merging
import LayeredEnv.Proofs.Decimal.Digits
import LayeredEnv.Proofs.Decimal.Exact
import LayeredEnv.Proofs.Json.Token
import LayeredEnv.Proofs.Json.Reading
import LayeredEnv.Proofs.Json.Within
import LayeredEnv.Proofs.Json.RoundTrip
import LayeredEnv.Proofs.Value.Dollars
import LayeredEnv.Proofs.Value.Retyping
import LayeredEnv.Proofs.Value.Number
import LayeredEnv.Proofs.Value.Nesting
import LayeredEnv.Proofs.Value.Cycle
import LayeredEnv.Proofs.EnvFile.QuotedLines
import LayeredEnv.Proofs.EnvFile.Unquoted
import LayeredEnv.Proofs.Loading.Unload
import LayeredEnv.Proofs.Value.Termination
import LayeredEnv.Proofs.EnvFile.Keys
import LayeredEnv.Proofs.Settings.Layers
import LayeredEnv.Proofs.EnvFile.Layout
import LayeredEnv.Proofs.Value.Literal
import LayeredEnv.Proofs.Loading.Warnings
import LayeredEnv.Proofs.EnvFile.Continuation
