import GoGraft.File.Index
import GoGraft.Operation
import GoGraft.Proofs.Execution
import GoGraft.Proofs.Lossless
import GoGraft.Proofs.Stacks
import GoGraft.Proofs.Rows
import GoGraft.Proofs.Sections
import GoGraft.Proofs.Boundaries
import GoGraft.Proofs.Written
import GoGraft.Proofs.Splices
import GoGraft.Proofs.Rereading
import GoGraft.Proofs.ImportRuns
import GoGraft.Proofs.Places
import GoGraft.Proofs.ImportEdits
import GoGraft.Proofs.FileEdits
import GoGraft.Proofs.Idempotence
import GoGraft.Proofs.Standing
import GoGraft.Proofs.RecordRuns
import GoGraft.Proofs.SpecRuns
import GoGraft.Proofs.FieldLists
import GoGraft.Proofs.SpecParts
import GoGraft.Proofs.EditSteps
import GoGraft.Proofs.FieldInsertion
import GoGraft.Proofs.PlainFields
import GoGraft.Proofs.TypeViews
import GoGraft.Proofs.Preflight
import GoGraft.Proofs.Untouched
import GoGraft.Proofs.FieldEdits
import GoGraft.Proofs.Reparsing
import GoGraft.Proofs.Blocks
import GoGraft.Proofs.Seams
import GoGraft.Proofs.EditedFiles
import GoGraft.Proofs.Previews
import GoGraft.Proofs.SessionRuns
import GoGraft.Proofs.ImportShapes
import GoGraft.Proofs.LineEndings
import GoGraft.Proofs.ImportDrift
import GoGraft.Proofs.Departures
import GoGraft.Proofs.WriteThrough
import GoGraft.Proofs.Reruns
import GoGraft.Proofs.EditRuns
import GoGraft.Proofs.ImportOrder
import GoGraft.Proofs.Layouts
import GoGraft.Proofs.SourcePositions
import GoGraft.Proofs.ReadAlone
import GoGraft.Proofs.KeptText
import GoGraft.Proofs.ImportLists
import GoGraft.Proofs.InferredImports
import GoGraft.Proofs.TypeTexts
import GoGraft.Proofs.TypeRuns
import GoGraft.Proofs.ExactFields
import GoGraft.Proofs.Positions
import GoGraft.Proofs.Reports
import GoGraft.Proofs.FalseAlarms
import GoGraft.Proofs.FinalNewline
import GoGraft.Proofs.KeptEndings
import GoGraft.Proofs.Beginnings
import GoGraft.Proofs.FirstLine
import GoGraft.Proofs.Validity
import GoGraft.Proofs.FieldOrder
import GoGraft.Proofs.TagLiterals
import GoGraft.Proofs.ItemOrder
import GoGraft.Proofs.EditScripts
import GoGraft.Proofs.Compaction
import GoGraft.Proofs.DiffBlocks
import GoGraft.Proofs.Hunks
import GoGraft.Proofs.ExactDecoding
import GoGraft.Proofs.ReadyTypes
import GoGraft.Proofs.RequestEncoding
