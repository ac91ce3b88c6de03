import StyleAudit.CharSet.Property

/-!
Letters and digits of every script.

What counts as one follows version 17 of the Unicode standard, which adds to the sets of version
16 the letters and digits listed here.
-/

namespace StyleAudit.Text

/-- The alphabetic characters that version 17 added. -/
def newAlphabetic : CharSet := CharSet.ofText
  "88F C5C CDC A7CE-A7CF A7D2 A7D4 A7F1 10940-10959 10EC5-10EC7 10EFA-10EFB 11B60-11B67 11DB0-11DDB
   16EA0-16EB8 16EBB-16ED3 16FF2-16FF6 187F8-187FF 18D09-18D1E 18D80-18DF2 1E6C0-1E6DE 1E6E0-1E6F5
   1E6FE-1E6FF 2B73A-2B73F 2CEA2-2CEAD 323B0-33479"

/-- The digits that version 17 added. -/
def newDigits : CharSet := CharSet.ofText "11DE0-11DE9 16FF4-16FF6"

/-- The alphabetic characters. -/
def alphabetic : CharSet := CharSet.alphabetic.union newAlphabetic

/-- The alphabetic characters and the numbers. -/
def alphanumeric : CharSet :=
  CharSet.unions [alphabetic, CharSet.categories ["Nd", "Nl", "No"], newDigits]

/-- Whether a character is a letter of any script. -/
def isAlphabetic (c : Char) : Bool :=
  if c.toNat < 0x80 then c.isAlpha else alphabetic.mem c

/-- Whether a character is a letter or a digit of any script. -/
def isAlphanumeric (c : Char) : Bool :=
  if c.toNat < 0x80 then c.isAlphanum else alphanumeric.mem c

end StyleAudit.Text
