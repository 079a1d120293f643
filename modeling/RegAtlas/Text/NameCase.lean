import RegAtlas.Text.Basic

/-!
# Case conversion of names

A name is cut into words at every character that is neither letter nor digit, and inside such a
piece where the case of the letters changes: after a lower case letter that an upper case one
follows, and before the last of several upper case letters when a lower case one follows it.
-/

namespace RegAtlas.Text

/-- The case of the last letter of the open word; digits keep the case before them. -/
inductive CaseRun where
  | start
  | lower
  | upper
  deriving DecidableEq, Repr

def CaseRun.next (run : CaseRun) (c : Char) : CaseRun :=
  if isLower c then .lower else if isUpper c then .upper else run

/-- Words of a piece of letters and digits. `word` holds the open word backwards. -/
def splitCaseAux (run : CaseRun) (word : List Char) : List Char → List (List Char)
  | [] => []
  | [c] => [(c :: word).reverse]
  | c :: d :: cs =>
    if run.next c = .lower && isUpper d then
      (c :: word).reverse :: splitCaseAux .start [] (d :: cs)
    else if run = .upper && isUpper c && isLower d then
      word.reverse :: splitCaseAux .start [c] (d :: cs)
    else splitCaseAux (run.next c) (c :: word) (d :: cs)

def splitCase (piece : List Char) : List (List Char) := splitCaseAux .start [] piece

/-- The words of a name. -/
def nameWords (name : List Char) : List (List Char) :=
  (splitChars (! isAlphanumeric ·) name).flatMap splitCase

/-- Lower case form of a word. A capital sigma at its end becomes the final sigma. -/
def lowerWord : List Char → List Char
  | [] => []
  | ['Σ'] => ['ς']
  | c :: cs => lowerForm c ++ lowerWord cs

def upperWord (word : List Char) : List Char := word.flatMap upperForm

def capitalizeWord : List Char → List Char
  | [] => []
  | c :: cs => upperForm c ++ lowerWord cs

/-- Target case of a conversion. -/
inductive NameCase where
  /-- `RX_BUFFER_SIZE` becomes `RxBufferSize`. -/
  | upperCamel
  /-- `RxBufferSize` becomes `rx_buffer_size`. -/
  | snake
  deriving DecidableEq, Repr

def NameCase.convertChars : NameCase → List Char → List Char
  | .upperCamel, name => (nameWords name).flatMap capitalizeWord
  | .snake, name => ['_'].intercalate ((nameWords name).map lowerWord)

/-- Converts one name. -/
def NameCase.convert (target : NameCase) (name : String) : String :=
  String.ofList (target.convertChars name.toList)

/-- Upper case words joined by underscores: `RxBufferSize` becomes `RX_BUFFER_SIZE`. -/
def shoutingSnake (name : String) : String :=
  String.ofList (['_'].intercalate ((nameWords name.toList).map upperWord))

/-- Upper case form of a text, character by character. -/
def upperText (s : String) : String := String.ofList (upperWord s.toList)

end RegAtlas.Text
