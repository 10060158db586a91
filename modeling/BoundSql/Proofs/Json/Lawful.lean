import BoundSql.Proofs.Json.Printing
import BoundSql.Proofs.Json.Reading
import BoundSql.Proofs.Json.Reals

/-!
# The printer and the reader are lawful

The printer and the reader of this project keep the laws of a library for JSON: the printer writes
texts of the grammar, the reader reads exactly these texts, and the literals of numbers are read as
the laws say.
-/

namespace BoundSql.Json

instance : LawfulLibrary where
  readAs_eq_ok_iff _ _ _ := readAs_eq_ok_iff
  compact_writes h := (documentText_compact h).writes
  pretty_writes h := (documentText_prettyAt h 0).writes
  readNumber?_natural n := Number.toNumeral?_ofInt_natCast n
  readNumber?_negative _ h := Number.toNumeral?_ofInt_neg h
  readNumber?_marked h _ hn := Number.exists_isFinite_of_isMarked h hn
  printReal_denotes negative rank := Number.exists_denotes_ofRank negative rank
  readNumber?_printReal x h := by
    cases x with
    | nan => cases h
    | infinite => cases h
    | finite negative rank =>
      obtain ⟨y, hy⟩ := Number.exists_toNumeral?_ofRank negative rank
      exact Option.isSome_iff_exists.2 ⟨_, hy⟩

end BoundSql.Json
