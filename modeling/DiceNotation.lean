import DiceNotation.Main
import DiceNotation.Proofs.Reading
import DiceNotation.Proofs.DoubleBits
import DiceNotation.Proofs.Lexing
import DiceNotation.Proofs.Partition
import DiceNotation.Proofs.RoundTrip
import DiceNotation.Proofs.Parentheses
import DiceNotation.Proofs.Blanks
import DiceNotation.Proofs.Spellings
import DiceNotation.Proofs.DiceLeaves
import DiceNotation.Proofs.Resolution
import DiceNotation.Proofs.Totals
import DiceNotation.Proofs.Statistics
import DiceNotation.Proofs.Reevaluation
import DiceNotation.Proofs.Sessions
import DiceNotation.Proofs.WholeDoubles
import DiceNotation.Proofs.Extremes
import DiceNotation.Proofs.Deals
import DiceNotation.Proofs.ExactStats
import DiceNotation.Proofs.Means
import DiceNotation.Proofs.Containment
import DiceNotation.Proofs.Continuations
import DiceNotation.Proofs.Refusals
import DiceNotation.Proofs.Independence
import DiceNotation.Proofs.Formats
import DiceNotation.Proofs.InputLines
import DiceNotation.Proofs.Options
import DiceNotation.Proofs.Transcripts
import DiceNotation.Proofs.Programs
import DiceNotation.Proofs.Nearest
import DiceNotation.Proofs.Rounding
import DiceNotation.Proofs.MonotoneDoubles
import DiceNotation.Proofs.Rolls
import DiceNotation.Proofs.Bounds
import DiceNotation.Proofs.Fairness
import DiceNotation.Proofs.Hands
import DiceNotation.Proofs.OppositeDoubles
import DiceNotation.Proofs.Differences
import DiceNotation.Proofs.NumberTexts
import DiceNotation.Proofs.Groupings
import DiceNotation.Proofs.JsonTexts
import DiceNotation.Proofs.Indentation
import DiceNotation.Proofs.Documents
import DiceNotation.Proofs.PlainReplies
import DiceNotation.Proofs.Quotients
import DiceNotation.Proofs.Hundredths
import DiceNotation.Proofs.Descent
import DiceNotation.Proofs.Checks
import DiceNotation.Proofs.Agreement
import DiceNotation.Proofs.DescentTexts
