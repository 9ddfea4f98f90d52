import BinaryCsp.Text.Columns
import BinaryCsp.Text.Emoji

/-!
# Ligatures

Letters of some scripts merge into one sign, or stand one below the other, and take fewer columns
together than one by one.  As emoji sequences are, a ligature is read from its end: a `LigatureTail`
is what has been read of it.
-/

namespace BinaryCsp.Text

/-! ## The letters -/

def isAlef (c : Char) : Bool :=
  inRanges #[(0x0622, 0x0623), (0x0625, 0x0625), (0x0627, 0x0627), (0x0671, 0x0673),
    (0x0675, 0x0675), (0x0773, 0x0774), (0x0870, 0x0882)] c

def isLam (c : Char) : Bool :=
  inRanges #[(0x0644, 0x0644), (0x06B5, 0x06B8), (0x076A, 0x076A), (0x08A6, 0x08A6),
    (0x08C7, 0x08C7)] c

/-- The ranges of flat characters through which Arabic letters do not join. -/
def partingRanges : Array (Nat × Nat) :=
  #[(0x0605, 0x0605), (0x0890, 0x0891), (0x08E2, 0x08E2), (0x09BE, 0x09BE), (0x09D7, 0x09D7),
   (0x0B3E, 0x0B3E), (0x0B57, 0x0B57), (0x0BBE, 0x0BBE), (0x0BD7, 0x0BD7), (0x0CC0, 0x0CC0),
   (0x0CC2, 0x0CC2), (0x0CC7, 0x0CC8), (0x0CCA, 0x0CCB), (0x0CD5, 0x0CD6), (0x0D3E, 0x0D3E),
   (0x0D4E, 0x0D4E), (0x0D57, 0x0D57), (0x0DCF, 0x0DCF), (0x0DDF, 0x0DDF), (0x1160, 0x11FF),
   (0x1715, 0x1715), (0x1734, 0x1734), (0x180E, 0x180E), (0x1B35, 0x1B35), (0x1B3B, 0x1B3B),
   (0x1B3D, 0x1B3D), (0x1B43, 0x1B44), (0x1BAA, 0x1BAA), (0x1BF2, 0x1BF3), (0x200C, 0x200D),
   (0x2065, 0x2069), (0x302E, 0x302F), (0x3164, 0x3164), (0xA8FA, 0xA8FA), (0xA953, 0xA953),
   (0xA9C0, 0xA9C0), (0xD7B0, 0xD7C6), (0xD7CB, 0xD7FB), (0xFF9E, 0xFFA0), (0xFFF0, 0xFFF8),
   (0x111C0, 0x111C0), (0x111C2, 0x111C3), (0x11235, 0x11235), (0x1133E, 0x1133E),
   (0x1134D, 0x1134D), (0x11357, 0x11357), (0x113B8, 0x113B8), (0x113C2, 0x113C2),
   (0x113C5, 0x113C5), (0x113C7, 0x113C9), (0x113CF, 0x113CF), (0x113D1, 0x113D1),
   (0x114B0, 0x114B0), (0x114BD, 0x114BD), (0x115AF, 0x115AF), (0x116B6, 0x116B6),
   (0x11930, 0x11930), (0x1193D, 0x1193D), (0x1193F, 0x1193F), (0x11941, 0x11941),
   (0x11A3A, 0x11A3A), (0x11A84, 0x11A89), (0x11D46, 0x11D46), (0x11F02, 0x11F02),
   (0x11F41, 0x11F41), (0x16FF0, 0x16FF1), (0x1D165, 0x1D166), (0x1D16D, 0x1D172),
   (0xE0000, 0xE0000), (0xE0002, 0xE001F), (0xE0080, 0xE00FF), (0xE01F0, 0xE0FFF)]

/-- Whether Arabic letters join through a character. -/
def isTransparent (c : Char) : Bool := isFlat c && !inRanges partingRanges c

/-- Whether a character leaves the ligature whole in which it stands: a mark that is ignored. -/
def isIgnoredMark (c : Char) : Bool :=
  inRanges #[(0x034F, 0x034F), (0x17B4, 0x17B5), (0x180B, 0x180D), (0x180F, 0x180F),
    (0xFE00, 0xFE0F), (0xE0100, 0xE01EF)] c

/-- Whether a Khmer letter has a form below the line. -/
def isCoengLetter (c : Char) : Bool :=
  inRanges #[(0x1780, 0x1782), (0x1784, 0x1787), (0x1789, 0x178C), (0x178E, 0x1793),
    (0x1795, 0x1798), (0x179B, 0x179D), (0x17A0, 0x17A0), (0x17A2, 0x17A2), (0x17A7, 0x17A7),
    (0x17AB, 0x17AC), (0x17AF, 0x17AF)] c

def isTifinaghConsonant (c : Char) : Bool := within 0x2D31 0x2D65 c || c = '\u2d6f'

/-! ## The tails -/

/-- What has been read of a ligature, from its end.  Where `tied` occurs it says whether a joiner
stands in front. -/
inductive LigatureTail where
  /-- Arabic: an alef, perhaps with marks in front. -/
  | alef
  /-- Hebrew: a lamed. -/
  | lamed (tied : Bool)
  /-- Khmer: a letter that has a form below the line. -/
  | coengLetter
  /-- Buginese: a ya. -/
  | ya (tied : Bool)
  /-- Buginese: a vowel, and the ya that a joiner ties to it. -/
  | vowelYa
  /-- Tifinagh: a consonant. -/
  | consonant (tied : Bool)
  /-- Tifinagh: the sign that joins two consonants, and the second of them. -/
  | joinedConsonant
  /-- Lisu: the second letter of a tone. -/
  | lisuTone
  /-- Old Turkic: an i. -/
  | turkicI (tied : Bool)
  /-- Kirat Rai: the vowel e. -/
  | vowelE
  /-- Kirat Rai: the vowel ai, as one letter or as two. -/
  | vowelAi
  deriving DecidableEq, Inhabited

namespace LigatureTail

def of? (c : Char) : Option LigatureTail :=
  if isAlef c then some alef
  else if c = '\u05dc' then some (lamed false)
  else if isCoengLetter c then some coengLetter
  else if c = '\u1a10' then some (ya false)
  else if isTifinaghConsonant c then some (consonant false)
  else if within 0xA4FC 0xA4FD c then some lisuTone
  else if c.toNat = 0x10C03 then some (turkicI false)
  else if c.toNat = 0x16D67 then some vowelE
  else if c.toNat = 0x16D68 then some vowelAi
  else none

/-- Whether a selector in front of a tail leaves it as it is. -/
def keepsSelector : LigatureTail → Bool
  | vowelE | vowelAi => false
  | _ => true

/-- A tail with a joiner in front, if it stays one. -/
def tie? : LigatureTail → Option LigatureTail
  | alef | vowelE | vowelAi => none
  | lamed _ => some (lamed true)
  | ya _ => some (ya true)
  | consonant _ => some (consonant true)
  | turkicI _ => some (turkicI true)
  | t => some t

/-- The columns that a letter adds in front of a tail, and the longer tail; `none` for the second
if the ligature is complete.  None at all if the letter has no part in the ligature. -/
def letter? (c : Char) : LigatureTail → Option (Int × Option LigatureTail)
  | alef =>
    if isLam c then some (0, none)
    else if isTransparent c then some (0, some alef)
    else none
  | lamed tied => if tied && c = '\u05d0' then some (0, none) else none
  | coengLetter => if c = '\u17d2' then some (-1, none) else none
  | ya tied => if tied && c = '\u1a17' then some (0, some vowelYa) else none
  | vowelYa => if c = '\u1a15' then some (0, none) else none
  | consonant tied =>
    if c = '\u2d7f' then some (1, some joinedConsonant)
    else if tied && isTifinaghConsonant c then some (0, none)
    else none
  | joinedConsonant => if isTifinaghConsonant c then some (-1, none) else none
  | lisuTone => if within 0xA4F8 0xA4FB c then some (0, none) else none
  | turkicI tied => if tied && c.toNat = 0x10C32 then some (0, none) else none
  | vowelE =>
    if c.toNat = 0x16D63 || c.toNat = 0x16D69 then some (0, none)
    else if c.toNat = 0x16D67 then some (0, some vowelAi)
    else if c.toNat = 0x16D68 then some (1, some vowelE)
    else none
  | vowelAi => if c.toNat = 0x16D63 then some (0, none) else none

/-- The columns that a character adds in front of a tail, and the longer tail, as `letter?` has
them.  Joiners and ignored marks may stand in a ligature. -/
def before? (c : Char) (t : LigatureTail) : Option (Int × Option LigatureTail) :=
  match t.tie? with
  | none => t.letter? c
  | some tied =>
    if c = joiner then some (0, some tied)
    else if isIgnoredMark c then some (0, some t)
    else t.letter? c

end LigatureTail

end BinaryCsp.Text
