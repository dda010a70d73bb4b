import TwoStage.Artifact.Basic
import TwoStage.Artifact.Disk
import TwoStage.Artifact.Emission
import TwoStage.Command.Arguments
import TwoStage.Command.Basic
import TwoStage.Command.Needs
import TwoStage.Command.Paint
import TwoStage.Command.Run
import TwoStage.Command.Starter
import TwoStage.Command.Summary
import TwoStage.Compilation
import TwoStage.Compile
import TwoStage.Context
import TwoStage.Credentials
import TwoStage.Decimal.Binary64
import TwoStage.Decimal.Numeral
import TwoStage.Decimal.Shortest
import TwoStage.Digest.Sha2
import TwoStage.Discovery
import TwoStage.Document
import TwoStage.Environment
import TwoStage.Error
import TwoStage.Fault
import TwoStage.FieldPath
import TwoStage.Files.Basic
import TwoStage.Files.Change
import TwoStage.Generator
import TwoStage.Guardrail
import TwoStage.Hook
import TwoStage.Key.Armor
import TwoStage.Key.Base64
import TwoStage.Key.Ed25519
import TwoStage.Key.Pair
import TwoStage.Key.Private
import TwoStage.Key.Public
import TwoStage.Key.Rsa
import TwoStage.Key.Wire
import TwoStage.Layout
import TwoStage.Main
import TwoStage.Marker
import TwoStage.Merge
import TwoStage.Mount
import TwoStage.OrderedMap
import TwoStage.Path
import TwoStage.Port
import TwoStage.Project
import TwoStage.Proofs.Artifact.Openers
import TwoStage.Proofs.Artifact.Paths
import TwoStage.Proofs.Artifact.Written
import TwoStage.Proofs.Compilation.Prepared
import TwoStage.Proofs.Compilation.PrivateText
import TwoStage.Proofs.Compilation.Rerun
import TwoStage.Proofs.Compilation.Stability
import TwoStage.Proofs.Compilation.Variables
import TwoStage.Proofs.Credentials.Files
import TwoStage.Proofs.Credentials.Rerun
import TwoStage.Proofs.Credentials.Tidy
import TwoStage.Proofs.Document.Strings
import TwoStage.Proofs.Document.Version
import TwoStage.Proofs.Files.Below
import TwoStage.Proofs.Files.Growth
import TwoStage.Proofs.Files.Links
import TwoStage.Proofs.Files.Walk
import TwoStage.Proofs.Guardrail.Coverage
import TwoStage.Proofs.Guardrail.Soundness
import TwoStage.Proofs.Layout.Fidelity
import TwoStage.Proofs.Layout.References
import TwoStage.Proofs.Layout.Rendering
import TwoStage.Proofs.Layout.Section
import TwoStage.Proofs.Layout.Strings
import TwoStage.Proofs.Layout.Written
import TwoStage.Proofs.Marker.Bland
import TwoStage.Proofs.Marker.Cut
import TwoStage.Proofs.Marker.Rewriting
import TwoStage.Proofs.Marker.Settled
import TwoStage.Proofs.Marker.Spans
import TwoStage.Proofs.Marker.Stable
import TwoStage.Proofs.Mount.Rerun
import TwoStage.Proofs.Mount.Strings
import TwoStage.Proofs.OrderedMap
import TwoStage.Proofs.Outcome
import TwoStage.Proofs.Path
import TwoStage.Proofs.Resolution
import TwoStage.Proofs.Credentials.PrivateText
import TwoStage.Proofs.Spec.PrivateText
import TwoStage.Proofs.Spec.Strings
import TwoStage.Proofs.Spec.WellFormed
import TwoStage.Proofs.Template.Exactness
import TwoStage.Proofs.Template.Following
import TwoStage.Proofs.Template.Reference
import TwoStage.Proofs.Template.Resolution
import TwoStage.Proofs.Template.Unfolding
import TwoStage.Proofs.Text.Split
import TwoStage.Proofs.Yaml.Correspondence
import TwoStage.Proofs.Yaml.Decode
import TwoStage.Proofs.Yaml.Equality
import TwoStage.Proofs.Yaml.Record
import TwoStage.Proofs.Yaml.Strings
import TwoStage.Resolution
import TwoStage.Settings
import TwoStage.Shell
import TwoStage.Spec
import TwoStage.Ssh
import TwoStage.Stage
import TwoStage.Storage
import TwoStage.Template
import TwoStage.Text.Blank
import TwoStage.Text.Quoted
import TwoStage.Text.Shapeless
import TwoStage.Text.Split
import TwoStage.Yaml.Decode
import TwoStage.Yaml.Merge
import TwoStage.Yaml.Node
import TwoStage.Yaml.Printer
import TwoStage.Yaml.Reader
import TwoStage.Yaml.Scalar
import TwoStage.Yaml.Texts
import TwoStage.Yaml.Token
import TwoStage.Yaml.Token.Lexer
import TwoStage.Yaml.Token.Property
import TwoStage.Yaml.Token.Scalar
import TwoStage.Yaml.Tree
import TwoStage.Proofs.Mount.Boundary
import TwoStage.Proofs.Layout.Volumes
import TwoStage.Proofs.Mount.Names
import TwoStage.Proofs.Template.Shape
import TwoStage.Proofs.Layout.Shape
import TwoStage.Proofs.Artifact.Emitted
import TwoStage.Proofs.Guardrail.Precision
import TwoStage.Proofs.Layout.Arguments
import TwoStage.Proofs.Artifact.Arguments
import TwoStage.Proofs.Shell.Reading
import TwoStage.Proofs.Artifact.BuildScript
import TwoStage.Proofs.Mount.Openers
import TwoStage.Proofs.Layout.Openers
import TwoStage.Proofs.Artifact.SingleArtifact
import TwoStage.Proofs.Marker.Interpolation
import TwoStage.Proofs.Merge
import TwoStage.Proofs.Files.Ascent
import TwoStage.Proofs.Discovery
import TwoStage.Proofs.Credentials.Users
import TwoStage.Proofs.Marker.Substitution
import TwoStage.Proofs.Environment.Exports
import TwoStage.Proofs.Environment.Forms
import TwoStage.Proofs.Mount.Keys
import TwoStage.Proofs.Layout.VolumeKeys
import TwoStage.Proofs.Environment.ProfileScript
import TwoStage.Proofs.Marker.Marked
import TwoStage.Proofs.Port.Markers
import TwoStage.Proofs.Port.Ends
import TwoStage.Proofs.Files.Passage
import TwoStage.Proofs.Artifact.Progress
import TwoStage.Proofs.Artifact.Atomicity
import TwoStage.Proofs.Artifact.Keyed
import TwoStage.Proofs.Artifact.Wrapper
import TwoStage.Proofs.Yaml.Sameness
import TwoStage.Proofs.Yaml.Overlay
import TwoStage.Proofs.Yaml.Token.Scalars
import TwoStage.Proofs.Yaml.Token.Block
import TwoStage.Proofs.Yaml.Outline
import TwoStage.Proofs.Yaml.Plain
import TwoStage.Proofs.Files.Writing
import TwoStage.Proofs.Command.Arguments
import TwoStage.Proofs.Command.Starter
import TwoStage.Proofs.Yaml.Distinct
import TwoStage.Proofs.Yaml.Nulls
import TwoStage.Proofs.Files.Course
import TwoStage.Proofs.Mount.Plain
import TwoStage.Proofs.Yaml.Integers
import TwoStage.Proofs.Yaml.Alike
import TwoStage.Proofs.Yaml.Surroundings
import TwoStage.Proofs.Document.Numbers
import TwoStage.Proofs.Spec.Numbers
import TwoStage.Proofs.Template.Rendering
