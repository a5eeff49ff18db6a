import ModuleAtlas.Graph.Loose
import ModuleAtlas.Main
import ModuleAtlas.Proofs.CommandLine.Run
import ModuleAtlas.Proofs.Configuration.Chain
import ModuleAtlas.Proofs.Configuration.Package
import ModuleAtlas.Proofs.Configuration.ShownAliases
import ModuleAtlas.Proofs.Configuration.Span
import ModuleAtlas.Proofs.Discovery.Source
import ModuleAtlas.Proofs.Graph.Construction
import ModuleAtlas.Proofs.Graph.Document
import ModuleAtlas.Proofs.Graph.Outline
import ModuleAtlas.Proofs.Graph.Registration
import ModuleAtlas.Proofs.Graph.SlashEdges
import ModuleAtlas.Proofs.Graph.Told
import ModuleAtlas.Proofs.Resolution.Rule
import ModuleAtlas.Proofs.Resolution.Stability
import ModuleAtlas.Proofs.Resolution.Target
import ModuleAtlas.Proofs.Resolution.Wildcard
import ModuleAtlas.Proofs.Source.Component
import ModuleAtlas.Proofs.Source.Import
import ModuleAtlas.Proofs.Source.Role
