import ConnectorSettings.Abfs
import ConnectorSettings.CommandLine
import ConnectorSettings.CommandLine.Parameter
import ConnectorSettings.CommandLine.Reading
import ConnectorSettings.Connector
import ConnectorSettings.Duration
import ConnectorSettings.Duration.Grammar
import ConnectorSettings.Entries
import ConnectorSettings.Environment
import ConnectorSettings.Files
import ConnectorSettings.Files.PathName
import ConnectorSettings.Files.Tree
import ConnectorSettings.Json
import ConnectorSettings.Json.Grammar
import ConnectorSettings.Json.Reader
import ConnectorSettings.KeyLayout
import ConnectorSettings.KeyTable
import ConnectorSettings.Main
import ConnectorSettings.Named
import ConnectorSettings.Number.Binary64
import ConnectorSettings.Number.Integer
import ConnectorSettings.Number.Numeral
import ConnectorSettings.Number.Rounding
import ConnectorSettings.Number.Shortest
import ConnectorSettings.OutputFormat
import ConnectorSettings.Preferences
import ConnectorSettings.Preferences.Document
import ConnectorSettings.Preferences.Loading
import ConnectorSettings.Preferences.Variables
import ConnectorSettings.Program
import ConnectorSettings.Proofs.Aliases
import ConnectorSettings.Proofs.Ascii
import ConnectorSettings.Proofs.Backslashes
import ConnectorSettings.Proofs.Breaks
import ConnectorSettings.Proofs.Collection
import ConnectorSettings.Proofs.Composition
import ConnectorSettings.Proofs.Decoration
import ConnectorSettings.Proofs.Durations
import ConnectorSettings.Proofs.Encoding
import ConnectorSettings.Proofs.Escapes
import ConnectorSettings.Proofs.Flattening
import ConnectorSettings.Proofs.Forwarding
import ConnectorSettings.Proofs.Guarded
import ConnectorSettings.Proofs.History
import ConnectorSettings.Proofs.Integers
import ConnectorSettings.Proofs.JsonRecords
import ConnectorSettings.Proofs.JsonReport
import ConnectorSettings.Proofs.JsonSpelling
import ConnectorSettings.Proofs.JsonText
import ConnectorSettings.Proofs.KeySpace
import ConnectorSettings.Proofs.Layers
import ConnectorSettings.Proofs.Lines
import ConnectorSettings.Proofs.MissingKeys
import ConnectorSettings.Proofs.Overriding
import ConnectorSettings.Proofs.Passes
import ConnectorSettings.Proofs.Precedence
import ConnectorSettings.Proofs.Readings
import ConnectorSettings.Proofs.Regions
import ConnectorSettings.Proofs.Regrouping
import ConnectorSettings.Proofs.RepeatedNames
import ConnectorSettings.Proofs.ReportLines
import ConnectorSettings.Proofs.Rounding
import ConnectorSettings.Proofs.Scopes
import ConnectorSettings.Proofs.Secrecy
import ConnectorSettings.Proofs.ShownKeys
import ConnectorSettings.Proofs.Stripping
import ConnectorSettings.Proofs.Warnings
import ConnectorSettings.Proofs.Writing
import ConnectorSettings.Proofs.WrittenIntegers
import ConnectorSettings.Properties
import ConnectorSettings.Properties.Ascii
import ConnectorSettings.Properties.Escape
import ConnectorSettings.Properties.Line
import ConnectorSettings.Properties.Writing
import ConnectorSettings.Readable
import ConnectorSettings.Report
import ConnectorSettings.Report.Terminal
import ConnectorSettings.S3
import ConnectorSettings.S3.Region
import ConnectorSettings.SettingsMap
import ConnectorSettings.SettingsMap.Edit
import ConnectorSettings.SettingsMap.Json
import ConnectorSettings.SettingsMap.Stripping
import ConnectorSettings.Source
import ConnectorSettings.Terminal
import ConnectorSettings.Text.Blank
import ConnectorSettings.Text.Described
import ConnectorSettings.Text.Digit
import ConnectorSettings.Text.Split
import ConnectorSettings.Text.Unprintable
import ConnectorSettings.Text.Utf8
import ConnectorSettings.Toml
import ConnectorSettings.Toml.DateTime
import ConnectorSettings.Toml.Document
import ConnectorSettings.Toml.Moment
import ConnectorSettings.Toml.Normal
import ConnectorSettings.Toml.Scalar
import ConnectorSettings.Toml.Scan
import ConnectorSettings.Toml.Value
import ConnectorSettings.View
