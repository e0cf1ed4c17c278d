import WorkerGen.Api.Serialized
import WorkerGen.Host.World
import WorkerGen.Main
import WorkerGen.Proofs.Api.Declarations
import WorkerGen.Proofs.Api.PathItem
import WorkerGen.Proofs.Api.RoundTrip
import WorkerGen.Proofs.Api.Step
import WorkerGen.Proofs.Api.Version
import WorkerGen.Proofs.CommandLine.Launching
import WorkerGen.Proofs.Compile.Bindings
import WorkerGen.Proofs.Compile.Deletion
import WorkerGen.Proofs.Compile.DerivedIds
import WorkerGen.Proofs.Compile.Dispatch
import WorkerGen.Proofs.Compile.History
import WorkerGen.Proofs.Compile.Success
import WorkerGen.Proofs.Compile.Table
import WorkerGen.Proofs.Compile.Undeclared
import WorkerGen.Proofs.Compile.Usage
import WorkerGen.Proofs.Env.Composition
import WorkerGen.Proofs.Env.Layout
import WorkerGen.Proofs.Identifier
import WorkerGen.Proofs.Json.Literal
import WorkerGen.Proofs.Json.ReadBack
import WorkerGen.Proofs.Number.ReadBack
import WorkerGen.Proofs.Number.Rounding
import WorkerGen.Proofs.Project.Agreement
import WorkerGen.Proofs.Project.Loading
import WorkerGen.Proofs.Route
import WorkerGen.Proofs.Worker.Calls
import WorkerGen.Proofs.Worker.Disclosure
import WorkerGen.Proofs.Worker.HandlerFile
import WorkerGen.Proofs.Worker.Header
import WorkerGen.Proofs.Worker.Lines
import WorkerGen.Proofs.Worker.Linking
import WorkerGen.Proofs.Worker.RouterText
import WorkerGen.Proofs.Worker.Tables
import WorkerGen.Proofs.Yaml.Anchored
