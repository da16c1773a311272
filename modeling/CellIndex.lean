import CellIndex.Main
import CellIndex.Proofs.Pipeline
import CellIndex.Table.Writer
import CellIndex.Proofs.Merge.Canonical
import CellIndex.Proofs.RangeFile.Accepting
import CellIndex.Proofs.RangeFile.WellFormed
import CellIndex.Proofs.Acceptance
import CellIndex.Proofs.Guarded.Basic
import CellIndex.Proofs.Guarded.Table
import CellIndex.Proofs.Guarded.SuffixTable
import CellIndex.Proofs.RangeFile.Robust
import CellIndex.Proofs.Guarded.RangeFile
import CellIndex.Proofs.RangeFile.Stepwise
import CellIndex.Proofs.RangeFile.Damage
import CellIndex.Proofs.Table.Writing
import CellIndex.Proofs.RangeFile.Publication
import CellIndex.Proofs.SuffixTable.Search
import CellIndex.Proofs.Merge.Minimal
import CellIndex.Proofs.RangeFile.Batches
import CellIndex.Proofs.RangeFile.Levels
import CellIndex.Proofs.Format.Keys
import CellIndex.Proofs.SuffixTable.Compression
import CellIndex.Proofs.SuffixTable.Codec
import CellIndex.Proofs.SuffixTable.Reach
import CellIndex.Proofs.Merge.Preset
import CellIndex.Proofs.Table.Publication
import CellIndex.Proofs.Guarded.Building
import CellIndex.Proofs.Cell.Extent
import CellIndex.Proofs.Cell.Token
import CellIndex.Proofs.Text.Basic
import CellIndex.Proofs.CellList.Lines
import CellIndex.Proofs.CellList.Rendering
import CellIndex.Proofs.Command.Create
import CellIndex.Proofs.Bytes.Codec
import CellIndex.Proofs.Cell.Spelling
import CellIndex.Proofs.Cell.Path
import CellIndex.Proofs.Command.Dump
import CellIndex.Proofs.Json.Grammar
import CellIndex.Proofs.Json.Reading
import CellIndex.Proofs.Json.Printing
import CellIndex.Proofs.Format.Json
import CellIndex.Proofs.Table.Layout
