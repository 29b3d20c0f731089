import SchemaForge.Main
import SchemaForge.Plugin.Script
import SchemaForge.Plugin.Scripted
import SchemaForge.Process.Load
import SchemaForge.Process.Shell
import SchemaForge.Wire.Document
import SchemaForge.Wire.Hexadecimal
import SchemaForge.Proofs.Wire.Lawful
import SchemaForge.Proofs.Wire.LawfulSchema
import SchemaForge.Proofs.Wire.RoundTrip
import SchemaForge.Proofs.Wire.CutStream
import SchemaForge.Proofs.Process.Errand
import SchemaForge.Proofs.Process.Transparency
import SchemaForge.Proofs.Generation.Turns
import SchemaForge.Proofs.Resolver.Closed
import SchemaForge.Proofs.Process.AnyPlugin
import SchemaForge.Proofs.Resolver.Stripping
import SchemaForge.Proofs.Resolver.Composition
import SchemaForge.Proofs.Plugin.Prune
import SchemaForge.Proofs.Generation.Scopes
import SchemaForge.Proofs.Schema.Store
import SchemaForge.Proofs.Wire.CanonicalMessages
import SchemaForge.Proofs.Plugin.Transcript
import SchemaForge.Proofs.Process.SingleUse
import SchemaForge.Proofs.Resolver.Carried
import SchemaForge.Proofs.Resolver.Lookups
import SchemaForge.Proofs.Resolver.Listings
import SchemaForge.Proofs.Resolver.Locations
import SchemaForge.Proofs.Resolver.Merging
import SchemaForge.Proofs.Wire.ReadAhead
import SchemaForge.Proofs.Generation.OutputDirectory
import SchemaForge.Proofs.Generation.Setting
import SchemaForge.Proofs.Wire.AnyBytes
import SchemaForge.Proofs.Plugin.Pruned
import SchemaForge.Proofs.Resolver.Descending
import SchemaForge.Proofs.Resolver.ChildrenFirst
import SchemaForge.Proofs.CommandLine.Merging
import SchemaForge.Proofs.Plugin.GeneratedDocuments
import SchemaForge.Proofs.Plugin.Containment
import SchemaForge.Proofs.Schema.Layout
import SchemaForge.Proofs.Wire.TracedMessages
import SchemaForge.Proofs.Generation.History
import SchemaForge.Proofs.Generation.NumericKinds
import SchemaForge.Proofs.Config.Reloading
import SchemaForge.Proofs.Schema.MapUrls
import SchemaForge.Proofs.Schema.Flattening
import SchemaForge.Proofs.Schema.SnakeCase
