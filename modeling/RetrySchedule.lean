import RetrySchedule.Backoff
import RetrySchedule.Complaint
import RetrySchedule.Loose.Schedule
import RetrySchedule.Slice
import RetrySchedule.Proofs.Counting
import RetrySchedule.Proofs.Grammar
import RetrySchedule.Proofs.Journal
import RetrySchedule.Proofs.Lists
import RetrySchedule.Proofs.Numeral
import RetrySchedule.Proofs.Reading.Expression
import RetrySchedule.Proofs.Reading.Faults
import RetrySchedule.Proofs.Reading.Joining
import RetrySchedule.Proofs.Reading.Language
import RetrySchedule.Proofs.Reading.Lenience
import RetrySchedule.Proofs.Reading.Markers
import RetrySchedule.Proofs.Reading.Normal
import RetrySchedule.Proofs.Reading.Outline
import RetrySchedule.Proofs.Reading.Repetition
import RetrySchedule.Proofs.Reading.RoundTrip
import RetrySchedule.Proofs.Reading.Spelling
import RetrySchedule.Proofs.Reading.Term
import RetrySchedule.Proofs.Schedule
import RetrySchedule.Proofs.Selection
import RetrySchedule.Proofs.Text.Blank
import RetrySchedule.Proofs.Text.Pattern
import RetrySchedule.Proofs.Waits
import RetrySchedule.Proofs.Writing
import RetrySchedule.Proofs.Reading.Attempts
import RetrySchedule.Proofs.Reading.Assembly
import RetrySchedule.Proofs.Binary64.Rounding
import RetrySchedule.Proofs.Number
import RetrySchedule.Proofs.Seconds
import RetrySchedule.Proofs.Backoff
import RetrySchedule.Proofs.Reading.Blame
import RetrySchedule.Proofs.Capping
import RetrySchedule.Proofs.Growth
import RetrySchedule.Proofs.Shifts
import RetrySchedule.Proofs.Shapes
import RetrySchedule.Proofs.Reading.Construction
import RetrySchedule.Proofs.Loose
