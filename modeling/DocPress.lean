import DocPress.Text.Blank
import DocPress.Text.Letter
import DocPress.Text.LetterCase
import DocPress.Text.Punctuation
import DocPress.Decimal.Shortest
import DocPress.Json.Value
import DocPress.Json.Located
import DocPress.Json.Shape
import DocPress.Text.Quoted
import DocPress.Catalog
import DocPress.Node
import DocPress.Node.Json
import DocPress.Text.Entity
import DocPress.Markdown.Scan
import DocPress.Markdown.Margin
import DocPress.Markdown.Construct
import DocPress.Markdown.Tag
import DocPress.Markdown.Label
import DocPress.Markdown.Item
import DocPress.Markdown.Block
import DocPress.Markdown.Inline
import DocPress.Markdown.Event
import DocPress.Recognizer
import DocPress.Node.Build
import DocPress.Html
import DocPress.Template
import DocPress.Date
import DocPress.Fields
import DocPress.Metadata
import DocPress.Metadata.Schema
import DocPress.Metadata.Json
import DocPress.Yaml.Cursor
import DocPress.Yaml.Scalar
import DocPress.Yaml.Token
import DocPress.Decimal.Read
import DocPress.Yaml.Tree
import DocPress.Yaml.Value
import DocPress.Yaml.Write
import DocPress.Toml.Value
import DocPress.Toml.Fault
import DocPress.Toml.Scalar
import DocPress.Toml.Table
import DocPress.Toml.Document
import DocPress.Metadata.Header
import DocPress.Path
import DocPress.Slug
import DocPress.Identifier
import DocPress.Artifact
import DocPress.Presentation
import DocPress.Json.Record
import DocPress.Stage
import DocPress.Stage.Json
import DocPress.Config
import DocPress.Config.Setting
import DocPress.Config.Read
import DocPress.Config.Load
import DocPress.Diagnostic
import DocPress.Caption
import DocPress.Picture
import DocPress.HeadingId
import DocPress.Minify
import DocPress.Footnote.Definition
import DocPress.Footnote.Lift
import DocPress.Footnote.Number
import DocPress.Syntax.Scope
import DocPress.Syntax.Token
import DocPress.Syntax.Registry
import DocPress.Syntax.Highlighter
import DocPress.Highlight
import DocPress.Stage.Run
import DocPress.Page
import DocPress.Pipeline
import DocPress.FileTree
import DocPress.Json.Bytes
import DocPress.Store
import DocPress.Cache
import DocPress.Build
import DocPress.Command.Options
import DocPress.Command
import DocPress.Config.Files
import DocPress.Command.Run
import DocPress.Syntax.Pattern
import DocPress.Syntax.Notation
import DocPress.Syntax.Grammar
import DocPress.Syntax.Language.Json
import DocPress.Syntax.Language.Diff
import DocPress.Syntax.Language.Rust
import DocPress.Syntax.Language.Css
import DocPress.Syntax.Language.JavaScript
import DocPress.Syntax.Language.Python
import DocPress.Syntax.Language.Bash
import DocPress.Syntax.Language.Html
import DocPress.Syntax.Language.Yaml
import DocPress.Command.Files
import DocPress.Main
import DocPress.Proofs.Text
import DocPress.Proofs.Node
import DocPress.Proofs.Footnote.Lift
import DocPress.Proofs.Footnote.Number
import DocPress.Proofs.Footnote.Numbered
import DocPress.Proofs.Template
import DocPress.Proofs.Html.Markup
import DocPress.Proofs.Html.Expression
import DocPress.Proofs.Json.Value
import DocPress.Proofs.Json.Scalar
import DocPress.Proofs.Json.Read
import DocPress.Proofs.Node.Json
import DocPress.Proofs.Presentation
import DocPress.Proofs.Path
import DocPress.Proofs.Store
import DocPress.Proofs.Date.Calendar
import DocPress.Proofs.Date.Text
import DocPress.Proofs.FileTree
import DocPress.Proofs.Metadata.Typed
import DocPress.Proofs.Result
import DocPress.Proofs.Metadata.Record
import DocPress.Proofs.Pipeline
import DocPress.Proofs.Cache
import DocPress.Proofs.Backends
import DocPress.Proofs.Node.Sound
import DocPress.Proofs.Html.Sound
import DocPress.Proofs.Footnote.Sound
import DocPress.Proofs.Stage.Sound
import DocPress.Proofs.Page
import DocPress.Proofs.Markdown.Event
import DocPress.Proofs.Node.Build
import DocPress.Proofs.Syntax.Grammar
import DocPress.Proofs.Pipeline.Total
import DocPress.Proofs.Yaml.Cursor
import DocPress.Proofs.Yaml.Quoted
import DocPress.Proofs.Yaml.Plain
import DocPress.Proofs.Yaml.Block
import DocPress.Proofs.Yaml.Token
import DocPress.Proofs.Footnote.Undefined
import DocPress.Proofs.Footnote.Spent
import DocPress.Proofs.Footnote.Count
import DocPress.Proofs.HeadingId
import DocPress.Proofs.Landmark
import DocPress.Proofs.Landmark.Page
import DocPress.Proofs.Footnote.Landmark
import DocPress.Proofs.Html.Anchor
import DocPress.Proofs.Pipeline.Link
import DocPress.Proofs.Footnote.Shape
import DocPress.Proofs.Node.Written
import DocPress.Proofs.Pipeline.Reference
import DocPress.Proofs.Yaml.Entry
import DocPress.Proofs.Yaml.Map
import DocPress.Proofs.Yaml.Parse
import DocPress.Proofs.Yaml.Lines
import DocPress.Proofs.Metadata.Header
import DocPress.Proofs.Path.Name
import DocPress.Proofs.Path.Below
import DocPress.Proofs.Identifier
import DocPress.Proofs.FileTree.Change
import DocPress.Proofs.FileTree.Listing
import DocPress.Proofs.FileTree.Apart
import DocPress.Proofs.Cache.Entry
import DocPress.Proofs.Cache.Run
import DocPress.Proofs.Cache.Listing
import DocPress.Proofs.Cache.Apart
import DocPress.Proofs.Store.Listing
import DocPress.Proofs.Minify
import DocPress.Proofs.Minify.Page
import DocPress.Proofs.Html.Tag
import DocPress.Proofs.Html.Outline
import DocPress.Proofs.Store.Names
import DocPress.Proofs.Cache.Layout
import DocPress.Proofs.Cache.Fill
import DocPress.Proofs.Build.Run
import DocPress.Proofs.Build.Check
import DocPress.Proofs.Build.Order
import DocPress.Proofs.Minify.Normal
import DocPress.Proofs.Page.Section
import DocPress.Proofs.Page.Table
import DocPress.Proofs.Page.Stable
import DocPress.Proofs.HeadingId.Assign
import DocPress.Proofs.Footnote.PutBack
import DocPress.Proofs.Footnote.InPlace
import DocPress.Proofs.Footnote.First
import DocPress.Proofs.Recognizer
import DocPress.Proofs.Yaml.Within
import DocPress.Proofs.Yaml.Stops
import DocPress.Proofs.Metadata.Refusal
import DocPress.Proofs.Metadata.Key
import DocPress.Proofs.Highlight.Block
import DocPress.Proofs.Node.ReadBack
import DocPress.Proofs.Node.Assemble
import DocPress.Proofs.Text.LetterCase
import DocPress.Proofs.Slug
import DocPress.Proofs.Toml.Order
import DocPress.Proofs.Config.Restate
import DocPress.Proofs.Config.Layers
