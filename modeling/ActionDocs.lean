import ActionDocs.Text.Basic
import ActionDocs.Text.Range
import ActionDocs.Text.Blank
import ActionDocs.Text.Word
import ActionDocs.Text.Cursor
import ActionDocs.Text.Digit
import ActionDocs.Text.Printable
import ActionDocs.Text.Uppercase
import ActionDocs.Text.Quoted
import ActionDocs.Text.Bytes
import ActionDocs.Text.Wrap
import ActionDocs.Template.Basic
import ActionDocs.Template.Fill
import ActionDocs.Log
import ActionDocs.Doc
import ActionDocs.Comment.Basic
import ActionDocs.Comment.Shape
import ActionDocs.Comment.Tag
import ActionDocs.Comment.Reading
import ActionDocs.Source
import ActionDocs.Page.Entry
import ActionDocs.Page.File
import ActionDocs.Review
import ActionDocs.Ratio
import ActionDocs.Settings
import ActionDocs.Path
import ActionDocs.ModuleName
import ActionDocs.Grouping
import ActionDocs.Disk.Node
import ActionDocs.Disk.Basic
import ActionDocs.Site.Sources
import ActionDocs.Site.Plan
import ActionDocs.Site.Run
import ActionDocs.Site.Toc
import ActionDocs.Site.Generate
import ActionDocs.Cli.Flag
import ActionDocs.Cli.Arguments
import ActionDocs.Cli.Help
import ActionDocs.Cli.Program
import ActionDocs.Main
import ActionDocs.Proofs.Disk.Changes
import ActionDocs.Proofs.Site.Sources
import ActionDocs.Proofs.Site.SourcesKept
import ActionDocs.Proofs.Grouping
import ActionDocs.Proofs.Page.Rendering
import ActionDocs.Proofs.Site.Contents
import ActionDocs.Proofs.Site.Topics
import ActionDocs.Proofs.Site.FinalState
import ActionDocs.Proofs.Site.Layout
import ActionDocs.Proofs.Comment.Declaration
import ActionDocs.Proofs.Comment.Segments
import ActionDocs.Proofs.Comment.Records
import ActionDocs.Proofs.Comment.Scan
import ActionDocs.Proofs.Comment.Closing
import ActionDocs.Proofs.Comment.Exclusive
import ActionDocs.Proofs.Comment.Chain
import ActionDocs.Proofs.Comment.Outline
import ActionDocs.Proofs.Comment.Decoration
import ActionDocs.Proofs.Comment.Spelling
import ActionDocs.Proofs.Comment.Writing
import ActionDocs.Proofs.Disk.Directories
import ActionDocs.Proofs.Site.SourceOrder
import ActionDocs.Proofs.Site.Cleaning
import ActionDocs.Proofs.Site.Reported
import ActionDocs.Proofs.Comment.LineEnds
import ActionDocs.Proofs.Disk.Growth
import ActionDocs.Proofs.Site.Links
import ActionDocs.Proofs.Site.Lockstep
import ActionDocs.Proofs.Disk.Relisted
import ActionDocs.Proofs.Site.Discovery
import ActionDocs.Proofs.Site.Rerun
import ActionDocs.Proofs.ModuleName.Root
import ActionDocs.Proofs.Site.Undecodable
import ActionDocs.Proofs.Cli.Strictness
import ActionDocs.Proofs.Comment.Params
import ActionDocs.Proofs.ModuleName.Below
import ActionDocs.Proofs.ModuleName.Separators
import ActionDocs.Proofs.Page.ParamTable
import ActionDocs.Proofs.Page.Blocks
import ActionDocs.Proofs.Page.Fence
import ActionDocs.Proofs.Disk.Names
import ActionDocs.Proofs.Disk.Preorder
import ActionDocs.Proofs.Site.TocItems
import ActionDocs.Proofs.Site.TocExact
