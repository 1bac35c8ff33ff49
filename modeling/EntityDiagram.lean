import EntityDiagram.CommandLine.Program
import EntityDiagram.Workspace
import EntityDiagram.Proofs.Declaration.Lookahead
import EntityDiagram.Proofs.Declaration.SignatureReading
import EntityDiagram.Proofs.Declaration.TypeReading
import EntityDiagram.Proofs.Declaration.FileReading
import EntityDiagram.Proofs.Model.DeclaredEntities
import EntityDiagram.Proofs.Model.RelationshipRules
import EntityDiagram.Proofs.Source.LexemeText
import EntityDiagram.Proofs.Source.Tiling
import EntityDiagram.Proofs.Source.Names
import EntityDiagram.Proofs.Declaration.Continuation
import EntityDiagram.Proofs.Declaration.Following
import EntityDiagram.Proofs.Declaration.ReaderFollowing
import EntityDiagram.Proofs.Declaration.SignatureFollowing
import EntityDiagram.Proofs.Declaration.MemberFollowing
import EntityDiagram.Proofs.Declaration.PrimaryFollowing
import EntityDiagram.Proofs.Declaration.TypeFollowing
import EntityDiagram.Proofs.Declaration.StatementFollowing
import EntityDiagram.Proofs.Declaration.LayoutIndependence
import EntityDiagram.Proofs.Declaration.Refusal
import EntityDiagram.Proofs.Declaration.Concatenation
import EntityDiagram.Proofs.Declaration.Blocks
import EntityDiagram.Proofs.Source.Concatenation
import EntityDiagram.Proofs.Model.Concatenation
import EntityDiagram.Proofs.Model.DeclarationOrder
import EntityDiagram.Proofs.Model.JointDerivation
import EntityDiagram.Proofs.Model.Merging
import EntityDiagram.Proofs.Model.EntityNames
import EntityDiagram.Proofs.Model.GraphInvariant
import EntityDiagram.Proofs.Render.DrawnEdges
import EntityDiagram.Proofs.Declaration.Positions
import EntityDiagram.Proofs.Declaration.Recursion
import EntityDiagram.Proofs.Declaration.ReadNames
import EntityDiagram.Proofs.Declaration.Loops
import EntityDiagram.Proofs.Render.CellNumbers
import EntityDiagram.Proofs.Source.TruePositions
import EntityDiagram.Proofs.Text.MarkupReading
import EntityDiagram.Proofs.Text.SimultaneousEscaping
import EntityDiagram.Proofs.Render.DocumentReading
import EntityDiagram.Proofs.Declaration.MemberSeparators
import EntityDiagram.Proofs.Text.Lines
import EntityDiagram.Proofs.Render.LineStructure
import EntityDiagram.Proofs.Render.ShownEntities
import EntityDiagram.Proofs.Source.Writing
import EntityDiagram.Proofs.Render.TypeReadingBack
import EntityDiagram.Proofs.Render.UnionTypeNames
import EntityDiagram.Proofs.Source.QuotedReading
import EntityDiagram.Proofs.Source.NumeralReading
import EntityDiagram.Proofs.Source.Respelling
import EntityDiagram.Proofs.Source.RegexReading
import EntityDiagram.Proofs.Declaration.ReadUnions
import EntityDiagram.Proofs.Model.UnionCollapse
import EntityDiagram.Proofs.Declaration.MemberChange
import EntityDiagram.Proofs.Model.MemberLocality
import EntityDiagram.Proofs.Model.NullableAnnotations
import EntityDiagram.Proofs.Model.OptionalMarks
import EntityDiagram.Proofs.Model.RepeatedEntities
import EntityDiagram.Proofs.Model.Inheritance
import EntityDiagram.Proofs.Model.TypeCoherence
import EntityDiagram.Proofs.Source.TemplateMarks
import EntityDiagram.Proofs.Source.TemplateNesting
import EntityDiagram.Proofs.Declaration.DocumentationWriting
import EntityDiagram.Proofs.Render.QuotedTexts
import EntityDiagram.Proofs.Render.BlockReading
import EntityDiagram.Proofs.Model.ReadTypes
import EntityDiagram.Proofs.Render.AttributeWords
import EntityDiagram.Proofs.Layout.Placements
import EntityDiagram.Proofs.Layout.GridSeparation
import EntityDiagram.Proofs.Layout.Components
import EntityDiagram.Proofs.Layout.ComponentSeparation
import EntityDiagram.Proofs.Render.LayoutsCompared
import EntityDiagram.Proofs.CommandLine.WrittenFiles
import EntityDiagram.Proofs.CommandLine.AllOrNothing
import EntityDiagram.Proofs.Declaration.TypeInvariants
import EntityDiagram.Proofs.Declaration.MemberNames
import EntityDiagram.Proofs.Source.EscapedCharacters
import EntityDiagram.Proofs.Model.EntityMembers
import EntityDiagram.Proofs.Model.AttributeNames
import EntityDiagram.Proofs.Text.XmlCharacters
import EntityDiagram.Proofs.Render.FixedValues
import EntityDiagram.Proofs.Render.AllowedCharacters
