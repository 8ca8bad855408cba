import ElfUnwind.Bytes.Cursor
import ElfUnwind.Bytes.Fields
import ElfUnwind.Bytes.Leb128
import ElfUnwind.Bytes.LittleEndian
import ElfUnwind.Bytes.Span
import ElfUnwind.CommandLine.Arguments
import ElfUnwind.CommandLine.Listing
import ElfUnwind.CommandLine.Numeral
import ElfUnwind.CommandLine.Rows
import ElfUnwind.CommandLine.Run
import ElfUnwind.Elf.ElfClass
import ElfUnwind.Elf.FileHeader
import ElfUnwind.Elf.Section
import ElfUnwind.Elf.Segment
import ElfUnwind.Error
import ElfUnwind.Event
import ElfUnwind.Frame.Decode
import ElfUnwind.Frame.Entry
import ElfUnwind.Frame.FrameIndex
import ElfUnwind.Frame.FrameSection
import ElfUnwind.Frame.Framing
import ElfUnwind.Frame.PointerEncoding
import ElfUnwind.Frame.Writer
import ElfUnwind.Image.Cache
import ElfUnwind.Image.Frames
import ElfUnwind.Image.Structure
import ElfUnwind.Image.Summary
import ElfUnwind.Image.Writer
import ElfUnwind.Main
import ElfUnwind.Proofs.Leb128Value
import ElfUnwind.SortedMap
import ElfUnwind.Source.FileTree
import ElfUnwind.Source.Medium
import ElfUnwind.Source.Path
import ElfUnwind.Source.Schedule
import ElfUnwind.Text.CharClass
import ElfUnwind.Text.ColumnClass
import ElfUnwind.Text.ControlSequence
import ElfUnwind.Text.Hex
import ElfUnwind.Text.LineWidth
import ElfUnwind.Text.Quoted
import ElfUnwind.Text.Utf8
import ElfUnwind.Told
import ElfUnwind.Proofs.Reads
import ElfUnwind.Proofs.Leb128RoundTrip
import ElfUnwind.Proofs.PointerRoundTrip
import ElfUnwind.Proofs.BodyDecoding
import ElfUnwind.Proofs.RecordDecoding
import ElfUnwind.Proofs.RecordRoundTrip
import ElfUnwind.Proofs.SectionRoundTrip
import ElfUnwind.Proofs.SectionLayout
import ElfUnwind.Proofs.TwoStages
import ElfUnwind.Proofs.PartialIndex
import ElfUnwind.Proofs.FrameRequests
import ElfUnwind.Proofs.BackReferences
import ElfUnwind.Proofs.Checks
import ElfUnwind.Proofs.FieldPositions
import ElfUnwind.Proofs.Opening
import ElfUnwind.Proofs.SectionNames
import ElfUnwind.Proofs.FieldRoundTrip
import ElfUnwind.Proofs.ImageRoundTrip
import ElfUnwind.Proofs.JoinedSections
import ElfUnwind.Proofs.Renumbering
import ElfUnwind.Proofs.RelativeAddresses
import ElfUnwind.Proofs.Spellings
import ElfUnwind.Proofs.LsdaPointers
import ElfUnwind.Proofs.Transcripts
import ElfUnwind.Proofs.RepeatedPasses
import ElfUnwind.Proofs.Displacement
import ElfUnwind.Proofs.Relocation
import ElfUnwind.Proofs.PathKeys
import ElfUnwind.Proofs.QuietTasks
import ElfUnwind.Proofs.CachedImages
import ElfUnwind.Proofs.AlikeMedia
import ElfUnwind.Proofs.OpenFiles
import ElfUnwind.Proofs.ImagesInUse
import ElfUnwind.Proofs.PlannedReads
import ElfUnwind.Proofs.OpeningReads
import ElfUnwind.Proofs.SharedKeys
import ElfUnwind.Proofs.AddressRanges
import ElfUnwind.Proofs.AddressLookup
import ElfUnwind.Proofs.ListingLines
import ElfUnwind.Proofs.FrameReports
import ElfUnwind.Proofs.Leb128Sums
import ElfUnwind.Proofs.Leb128Shortest
import ElfUnwind.Proofs.FieldFailures
import ElfUnwind.Proofs.TakenSpellings
import ElfUnwind.Proofs.MalformedAugmentations
import ElfUnwind.Proofs.StoredValues
import ElfUnwind.Proofs.CursorSteps
import ElfUnwind.Proofs.EncodedPointers
import ElfUnwind.Proofs.HeaderLayouts
import ElfUnwind.Proofs.BodyNarration
import ElfUnwind.Proofs.ToldPieces
import ElfUnwind.Proofs.Narration
import ElfUnwind.Proofs.AddressNumerals
import ElfUnwind.Proofs.CheckedRanges
import ElfUnwind.Proofs.ReadsInPieces
import ElfUnwind.Proofs.Leb128Counter
