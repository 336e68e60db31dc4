import Scribe.Decimal.Read
import Scribe.Formula.Basic
import Scribe.Formula.Token

/-!
# Reading formulas

Binary operators bind by rank. A sign before an operand binds looser than a power and tighter
than a product; a negation binds looser than a product and tighter than a sum. A chain of
comparisons holds when each of them does.
-/

namespace Scribe

namespace Formula

def Binary.ofSign? (sign : String) : Option (Binary × Nat) :=
  [("or", .or, 10), ("||", .or, 10), ("and", .and, 15), ("&&", .and, 15), ("==", .equal, 20),
    ("!=", .differ, 20), ("<", .less, 20), (">", .greater, 20), ("<=", .atMost, 20),
    (">=", .atLeast, 20), ("+", .add, 30), ("-", .subtract, 30), ("*", .multiply, 60),
    ("/", .divide, 60), ("%", .modulo, 60), ("**", .power, 100), ("^", .power, 100)].lookup sign

def Binary.isComparison : Binary → Bool
  | .less | .greater | .atMost | .atLeast => true
  | _ => false

/-- The least rank of the operators in the right operand; a power groups to the right. -/
def Binary.rightRank (op : Binary) (rank : Nat) : Nat := if op = .power then rank else rank + 1

def Unary.ofSign? (sign : String) : Option (Unary × Nat) :=
  [("not", .not, 50), ("!", .not, 50), ("-", .minus, 90), ("+", .plus, 90)].lookup sign

/-! ## Numbers -/

def integer? (base : Nat) (digits : Bytes) : Option Formula :=
  if digits.isEmpty || !digits.all (fun b => (Bytes.digitValue? b).any (· < base)) then none
  else
    let n := Decimal.digitsValue base digits
    if n < 0x8000000000000000 then some (.integer (Int64.ofNat n)) else none

/-- A real number, if it is not beyond the largest double. -/
def real? (digits : Bytes) : Option Formula :=
  match Decimal.read? digits with
  | some f => if f.isInf then none else some (.real f)
  | none => none

/-- The number that a token spells; underscores in it mean nothing. -/
def number? (text : Bytes) : Option Formula :=
  let digits := Bytes.lower (text.filter (· ≠ 0x5F))
  match Bytes.dropStart? digits (utf8 "0x") with
  | some rest => integer? 16 rest
  | none =>
      if digits.contains 0x2E || digits.contains 0x65 then real? digits
      else
        match Bytes.dropStart? digits (utf8 "0b"), Bytes.dropStart? digits (utf8 "0o") with
        | some rest, _ => integer? 2 rest
        | none, some rest => integer? 8 rest
        | none, none => integer? 10 digits

/-! ## Expressions

Every reader takes the tokens that are left and gives those behind what it has read. All of them
share one fuel, of which each call takes a unit; a text has never more calls open than eight for
each of its tokens. -/

abbrev Reader (α : Type) := Option (α × List Token)

def expect (t : Token) : List Token → Option (List Token)
  | u :: rest => if t = u then some rest else none
  | [] => none

def ofName (n : Bytes) : Formula :=
  if n = utf8 "true" then .boolean true
  else if n = utf8 "false" then .boolean false
  else if n = utf8 "nil" then .nothing
  else .name n

def isReserved (n : Bytes) : Bool := n = utf8 "true" || n = utf8 "false" || n = utf8 "nil"

mutual

/-- A formula whose operators have at least the given rank. -/
def expression : (fuel rank : Nat) → List Token → Reader Formula
  | 0, _, _ => none
  | fuel + 1, rank, ts =>
      match rank, ts with
      | 0, .sign "let" :: .name n :: .sign "=" :: rest =>
          match expression fuel 0 rest with
          | some (value, .sign ";" :: rest) =>
              (sequenced fuel rest).map fun (body, rest) => (.bind n value body, rest)
          | _ => none
      | _, _ =>
          match primary fuel ts with
          | none => none
          | some (left, rest) =>
              match operators fuel rank left rest with
              | none => none
              | some (e, rest) => if rank = 0 then choices fuel e rest else some (e, rest)

def operators : (fuel rank : Nat) → (left : Formula) → List Token → Reader Formula
  | 0, _, _, _ => none
  | fuel + 1, rank, left, ts =>
      match ts with
      | .sign s :: rest =>
          match Binary.ofSign? s with
          | some (op, own) =>
              if own < rank then some (left, ts)
              else if op.isComparison then
                match comparisons fuel none left op own rest with
                | some (e, rest) => operators fuel rank e rest
                | none => none
              else
                match expression fuel (op.rightRank own) rest with
                | some (right, rest) => operators fuel rank (.binary op left right) rest
                | none => none
          | none => some (left, ts)
      | _ => some (left, ts)

/-- A chain of comparisons. `done` is the part of it read before. -/
def comparisons :
    (fuel : Nat) → (done : Option Formula) → (left : Formula) → Binary → (rank : Nat) →
    List Token → Reader Formula
  | 0, _, _, _, _, _ => none
  | fuel + 1, done, left, op, rank, ts =>
      match expression fuel (rank + 1) ts with
      | none => none
      | some (right, rest) =>
          let link := Formula.binary op left right
          let chain := (done.map fun d => .binary .and d link).getD link
          match rest with
          | .sign s :: more =>
              match Binary.ofSign? s with
              | some (next, _) =>
                  if next.isComparison then comparisons fuel (some chain) right next rank more
                  else some (chain, rest)
              | none => some (chain, rest)
          | _ => some (chain, rest)

def choices : (fuel : Nat) → (condition : Formula) → List Token → Reader Formula
  | 0, _, _ => none
  | fuel + 1, condition, ts =>
      match ts with
      | .sign "?" :: .sign ":" :: rest =>
          match expression fuel 0 rest with
          | some (no, rest) => choices fuel (.choice condition condition no) rest
          | none => none
      | .sign "?" :: rest =>
          match expression fuel 0 rest with
          | some (yes, .sign ":" :: rest) =>
              match expression fuel 0 rest with
              | some (no, rest) => choices fuel (.choice condition yes no) rest
              | none => none
          | _ => none
      | _ => some (condition, ts)

def primary : (fuel : Nat) → List Token → Reader Formula
  | 0, _ => none
  | fuel + 1, ts =>
      match ts with
      | .sign s :: rest =>
          match Unary.ofSign? s with
          | some (op, rank) =>
              match expression fuel rank rest with
              | some (e, rest) => suffixes fuel (.unary op e) rest
              | none => none
          | none => none
      | .opening '(' :: rest =>
          match sequenced fuel rest with
          | some (e, .closing ')' :: rest) => suffixes fuel e rest
          | _ => none
      | .opening '[' :: rest =>
          match items fuel ']' [] rest with
          | some (es, rest) => suffixes fuel (.list es) rest
          | none => none
      | .opening '\x7b' :: rest =>
          match fields fuel [] rest with
          | some (fs, rest) => suffixes fuel (.record fs) rest
          | none => none
      | .name n :: .opening '(' :: rest =>
          if isReserved n then none
          else
            match items fuel ')' [] rest with
            | some (es, rest) => suffixes fuel (.call n es) rest
            | none => none
      | .name n :: rest => suffixes fuel (ofName n) rest
      | .number digits :: rest =>
          match number? digits with
          | some e => suffixes fuel e rest
          | none => none
      | .text s :: rest => suffixes fuel (.text s) rest
      | _ => none

def suffixes : (fuel : Nat) → (base : Formula) → List Token → Reader Formula
  | 0, _, _ => none
  | fuel + 1, base, ts =>
      match ts with
      | .sign "." :: .name n :: rest => suffixes fuel (.element base (.text n)) rest
      | .opening '[' :: .sign ":" :: .closing ']' :: rest =>
          suffixes fuel (.part base none none) rest
      | .opening '[' :: .sign ":" :: rest =>
          match expression fuel 0 rest with
          | some (finish, .closing ']' :: rest) =>
              suffixes fuel (.part base none (some finish)) rest
          | _ => none
      | .opening '[' :: rest =>
          match expression fuel 0 rest with
          | some (place, .closing ']' :: rest) => suffixes fuel (.element base place) rest
          | some (start, .sign ":" :: .closing ']' :: rest) =>
              suffixes fuel (.part base (some start) none) rest
          | some (start, .sign ":" :: rest) =>
              match expression fuel 0 rest with
              | some (finish, .closing ']' :: rest) =>
                  suffixes fuel (.part base (some start) (some finish)) rest
              | _ => none
          | _ => none
      | _ => some (base, ts)

/-- Formulas with commas between them up to a closing bracket; a comma may stand before it. -/
def items : (fuel : Nat) → Char → (done : List Formula) → List Token → Reader (List Formula)
  | 0, _, _, _ => none
  | fuel + 1, bracket, done, ts =>
      match expect (.closing bracket) ts with
      | some rest => some (done.reverse, rest)
      | none =>
          match expression fuel 0 ts with
          | some (e, .sign "," :: rest) => items fuel bracket (e :: done) rest
          | some (e, rest) =>
              (expect (.closing bracket) rest).map fun rest => ((e :: done).reverse, rest)
          | none => none

/-- The key of a field: a word, a number or a text as written, or a formula in parentheses. -/
def key : (fuel : Nat) → List Token → Reader Formula
  | 0, _ => none
  | fuel + 1, ts =>
      match ts with
      | .number s :: rest | .text s :: rest | .name s :: rest => some (.text s, rest)
      | .opening '(' :: _ => expression fuel 0 ts
      | _ => none

def fields : (fuel : Nat) → (done : List (Formula × Formula)) → List Token →
    Reader (List (Formula × Formula))
  | 0, _, _ => none
  | fuel + 1, done, ts =>
      match ts with
      | .closing '\x7d' :: rest => some (done.reverse, rest)
      | _ =>
          match key fuel ts with
          | some (k, .sign ":" :: rest) =>
              match expression fuel 0 rest with
              | some (v, .sign "," :: rest) => fields fuel ((k, v) :: done) rest
              | some (v, .closing '\x7d' :: rest) => some (((k, v) :: done).reverse, rest)
              | _ => none
          | _ => none

def sequenced : (fuel : Nat) → List Token → Reader Formula
  | 0, _ => none
  | fuel + 1, ts =>
      match expression fuel 0 ts with
      | some (e, [.sign ";"]) => some (e, [])
      | some (e, .sign ";" :: rest) =>
          (sequenced fuel rest).map fun (more, rest) => (.sequence e more, rest)
      | other => other

end

def read? (source : Bytes) : Option Formula :=
  match Token.scan? source with
  | none => none
  | some ts =>
      match sequenced (8 * (ts.length + 1)) ts with
      | some (e, []) => some e
      | _ => none

end Formula

end Scribe
