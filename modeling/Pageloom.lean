import Pageloom.Binary64
import Pageloom.Calendar
import Pageloom.CommandLine
import Pageloom.Desk
import Pageloom.Disk
import Pageloom.Entries
import Pageloom.Failure
import Pageloom.Filter
import Pageloom.FrontMatter
import Pageloom.Helper
import Pageloom.Html.AbsoluteUrl
import Pageloom.Html.Minify
import Pageloom.Layout
import Pageloom.Main
import Pageloom.Markdown.Block
import Pageloom.Markdown.Container
import Pageloom.Markdown.Definitions
import Pageloom.Markdown.Document
import Pageloom.Markdown.Emphasis
import Pageloom.Markdown.Highlighter
import Pageloom.Markdown.Html
import Pageloom.Markdown.Inline
import Pageloom.Markdown.InlineReader
import Pageloom.Markdown.Line
import Pageloom.Markdown.Table
import Pageloom.Markdown.Tag
import Pageloom.Markdown.Target
import Pageloom.Naming
import Pageloom.Page
import Pageloom.Path
import Pageloom.Site.Build
import Pageloom.Site.Config
import Pageloom.Site.Plan
import Pageloom.Source
import Pageloom.Template
import Pageloom.Text.Base64
import Pageloom.Text.Basic
import Pageloom.Text.Blank
import Pageloom.Text.Case
import Pageloom.Text.CaseTable
import Pageloom.Text.Category
import Pageloom.Text.Integer
import Pageloom.Text.Quoted
import Pageloom.Text.Reference
import Pageloom.Text.ReferenceTable
import Pageloom.Text.Utf8
import Pageloom.Value
import Pageloom.Workbench
import Pageloom.Yaml.Cursor
import Pageloom.Yaml.Fault
import Pageloom.Yaml.Loader
import Pageloom.Yaml.Node
import Pageloom.Yaml.Number
import Pageloom.Yaml.Scalar
import Pageloom.Yaml.Tag
import Pageloom.Yaml.Timestamp
import Pageloom.Yaml.Token
import Pageloom.Yaml.Value
import Pageloom.Proofs.Binary64
import Pageloom.Proofs.Desk.History
import Pageloom.Proofs.Desk.Rerendering
import Pageloom.Proofs.Disk.Directories
import Pageloom.Proofs.Disk.Files
import Pageloom.Proofs.Disk.Preservation
import Pageloom.Proofs.Disk.Removal
import Pageloom.Proofs.Disk.Trail
import Pageloom.Proofs.Disk.Tree
import Pageloom.Proofs.Entries
import Pageloom.Proofs.FrontMatter.Grammar
import Pageloom.Proofs.FrontMatter.Header
import Pageloom.Proofs.FrontMatter.Outcome
import Pageloom.Proofs.FrontMatter.Printing
import Pageloom.Proofs.FrontMatter.Quotes
import Pageloom.Proofs.Helper.Stateless
import Pageloom.Proofs.Html.Comment
import Pageloom.Proofs.Html.CompoundName
import Pageloom.Proofs.Html.Content
import Pageloom.Proofs.Html.Document
import Pageloom.Proofs.Html.Element
import Pageloom.Proofs.Html.Leftover
import Pageloom.Proofs.Html.PlainText
import Pageloom.Proofs.Html.Rebase
import Pageloom.Proofs.Html.Rebased
import Pageloom.Proofs.Html.Split
import Pageloom.Proofs.Html.Stability
import Pageloom.Proofs.Html.Thinning
import Pageloom.Proofs.Html.Tight
import Pageloom.Proofs.Html.WrittenForm
import Pageloom.Proofs.Layout.Content
import Pageloom.Proofs.Layout.Keys
import Pageloom.Proofs.Layout.Rendering
import Pageloom.Proofs.Layout.Reordering
import Pageloom.Proofs.Layout.Series
import Pageloom.Proofs.Markdown.Anchors
import Pageloom.Proofs.Markdown.Code
import Pageloom.Proofs.Markdown.CodeBlock
import Pageloom.Proofs.Markdown.CodeMarkup
import Pageloom.Proofs.Markdown.CodeUrls
import Pageloom.Proofs.Markdown.Container
import Pageloom.Proofs.Markdown.Document
import Pageloom.Proofs.Markdown.Emphasis
import Pageloom.Proofs.Markdown.InlineReader
import Pageloom.Proofs.Markdown.Line
import Pageloom.Proofs.Markdown.Placeholders
import Pageloom.Proofs.Markdown.Scanning
import Pageloom.Proofs.Markdown.Table
import Pageloom.Proofs.Markdown.Word
import Pageloom.Proofs.Markdown.Writing
import Pageloom.Proofs.Naming.Identifier
import Pageloom.Proofs.Naming.Slug
import Pageloom.Proofs.Naming.Title
import Pageloom.Proofs.Outcome
import Pageloom.Proofs.Path.Parts
import Pageloom.Proofs.Path.Resolve
import Pageloom.Proofs.Site.Clash
import Pageloom.Proofs.Site.Clean
import Pageloom.Proofs.Site.Collision
import Pageloom.Proofs.Site.Configuration
import Pageloom.Proofs.Site.Effect
import Pageloom.Proofs.Site.Failing
import Pageloom.Proofs.Site.Footprint
import Pageloom.Proofs.Site.Leaving
import Pageloom.Proofs.Site.Links
import Pageloom.Proofs.Site.Listing
import Pageloom.Proofs.Site.Mistyped
import Pageloom.Proofs.Site.Opening
import Pageloom.Proofs.Site.Order
import Pageloom.Proofs.Site.Planning
import Pageloom.Proofs.Site.Pool
import Pageloom.Proofs.Site.Rebuild
import Pageloom.Proofs.Site.Refusal
import Pageloom.Proofs.Site.Rendering
import Pageloom.Proofs.Site.Replanning
import Pageloom.Proofs.Site.Settings
import Pageloom.Proofs.Site.Sources
import Pageloom.Proofs.Site.Stages
import Pageloom.Proofs.Site.Target
import Pageloom.Proofs.Site.Tokens
import Pageloom.Proofs.Site.Writing
import Pageloom.Proofs.Source.Reading
import Pageloom.Proofs.Template.Cut
import Pageloom.Proofs.Template.Fill
import Pageloom.Proofs.Template.Questions
import Pageloom.Proofs.Text.Blank
import Pageloom.Proofs.Text.Breaks
import Pageloom.Proofs.Text.Case
import Pageloom.Proofs.Text.Digits
import Pageloom.Proofs.Text.Parts
import Pageloom.Proofs.Text.Places
import Pageloom.Proofs.Text.Reference
import Pageloom.Proofs.Text.Runs
import Pageloom.Proofs.Text.Utf8
import Pageloom.Proofs.Value
import Pageloom.Proofs.Workbench.History
import Pageloom.Proofs.Yaml.Cursor
import Pageloom.Proofs.Yaml.Leading
import Pageloom.Proofs.Yaml.Load
import Pageloom.Proofs.Yaml.Node
import Pageloom.Proofs.Yaml.Number
import Pageloom.Proofs.Yaml.Opening
import Pageloom.Proofs.Yaml.Plain
import Pageloom.Proofs.Yaml.Quoted
import Pageloom.Proofs.Yaml.Scalar
import Pageloom.Proofs.Yaml.Token
import Pageloom.Proofs.Yaml.Value
