import RegAtlas.LineWriter.Script
import RegAtlas.Literal
import RegAtlas.Keyword
import RegAtlas.WordGroup
import RegAtlas.Text.NameCase
import RegAtlas.Component.Identity
import RegAtlas.Reference
import RegAtlas.Rename
import RegAtlas.Outline
import RegAtlas.Component.Dump
import RegAtlas.Document.Json
import RegAtlas.Document.Yaml
import RegAtlas.Output.CHeader
import RegAtlas.Output.KernelHeader
import RegAtlas.Output.VhdlPackage
import RegAtlas.Output.RegisterDoc
import RegAtlas.Output.EntityTable
import RegAtlas.Entity.Reader
import RegAtlas.Xml.Reader
import RegAtlas.Ipxact.Reader
import RegAtlas.Files.Tree
import RegAtlas.Command.Basic
import RegAtlas.Main
import RegAtlas.Proofs.Component.Layout
import RegAtlas.Proofs.WordGroup.Windows
import RegAtlas.Proofs.Output.Agreement
import RegAtlas.Proofs.Output.Accepted
import RegAtlas.Proofs.Output.DocumentRange
import RegAtlas.Proofs.Output.StructLayout
import RegAtlas.Proofs.Output.TableRows
import RegAtlas.Proofs.Output.HeaderClash
import RegAtlas.Proofs.Output.PackageClash
import RegAtlas.Proofs.Literal
import RegAtlas.Proofs.Reference.Resolution
import RegAtlas.Proofs.Entity.Source
import RegAtlas.Proofs.Entity.Description
import RegAtlas.Proofs.Ipxact.Edit
import RegAtlas.Proofs.Rename.Frame
import RegAtlas.Proofs.Rename.Repetition
import RegAtlas.Proofs.Component.Traversal
import RegAtlas.Proofs.Output.UnionLayout
import RegAtlas.Proofs.Rename.Description
import RegAtlas.Proofs.Output.BitTables
import RegAtlas.Proofs.Output.AddressWidth
import RegAtlas.Proofs.Output.ReservedWords
import RegAtlas.Proofs.LineWriter.Run
import RegAtlas.Proofs.LineWriter.CommentWidth
import RegAtlas.Proofs.Output.ValueConstants
import RegAtlas.Proofs.Ipxact.Extension
import RegAtlas.Proofs.Outline.Indentation
import RegAtlas.Proofs.Output.Escape
import RegAtlas.Proofs.Output.MergedCells
import RegAtlas.Proofs.Rename.Occurrence
