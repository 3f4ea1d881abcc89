/-!
General categories of characters, and the classes of characters made from them: word characters,
decimal digits, printable characters and characters that extend the one before them. White space
is a class of its own, which cuts across the categories.
-/

namespace Signpost.Unicode

/-- Whether a character is white space: the property White_Space, the blanks of any script. -/
def isBlank (c : Char) : Bool :=
  let n := c.toNat
  (0x09 ≤ n && n ≤ 0x0D) || n == 0x20 || n == 0x85 || n == 0xA0 || n == 0x1680 ||
    (0x2000 ≤ n && n ≤ 0x200A) || n == 0x2028 || n == 0x2029 || n == 0x202F || n == 0x205F ||
    n == 0x3000

/-- The general category of a character. -/
inductive Category where
  | upperLetter | lowerLetter | titleLetter | modifierLetter | otherLetter | nonspacingMark
  | spacingMark | enclosingMark | decimalNumber | letterNumber | otherNumber
  | connectorPunctuation | dashPunctuation | openPunctuation | closePunctuation
  | initialPunctuation | finalPunctuation | otherPunctuation | mathSymbol | currencySymbol
  | modifierSymbol | otherSymbol | spaceSeparator | lineSeparator | paragraphSeparator | control
  | format | surrogate | privateUse | unassigned
  deriving DecidableEq, Repr, Inhabited

namespace Category

/-- The categories in the order of their letters in `table`. -/
def all : List Category :=
  [.upperLetter, .lowerLetter, .titleLetter, .modifierLetter, .otherLetter, .nonspacingMark,
   .spacingMark, .enclosingMark, .decimalNumber, .letterNumber, .otherNumber,
   .connectorPunctuation, .dashPunctuation, .openPunctuation, .closePunctuation,
   .initialPunctuation, .finalPunctuation, .otherPunctuation, .mathSymbol, .currencySymbol,
   .modifierSymbol, .otherSymbol, .spaceSeparator, .lineSeparator, .paragraphSeparator, .control,
   .format, .surrogate, .privateUse, .unassigned]

/-- The two letters by which a category is known. -/
def abbreviation : Category → String
  | .upperLetter => "Lu"
  | .lowerLetter => "Ll"
  | .titleLetter => "Lt"
  | .modifierLetter => "Lm"
  | .otherLetter => "Lo"
  | .nonspacingMark => "Mn"
  | .spacingMark => "Mc"
  | .enclosingMark => "Me"
  | .decimalNumber => "Nd"
  | .letterNumber => "Nl"
  | .otherNumber => "No"
  | .connectorPunctuation => "Pc"
  | .dashPunctuation => "Pd"
  | .openPunctuation => "Ps"
  | .closePunctuation => "Pe"
  | .initialPunctuation => "Pi"
  | .finalPunctuation => "Pf"
  | .otherPunctuation => "Po"
  | .mathSymbol => "Sm"
  | .currencySymbol => "Sc"
  | .modifierSymbol => "Sk"
  | .otherSymbol => "So"
  | .spaceSeparator => "Zs"
  | .lineSeparator => "Zl"
  | .paragraphSeparator => "Zp"
  | .control => "Cc"
  | .format => "Cf"
  | .surrogate => "Cs"
  | .privateUse => "Co"
  | .unassigned => "Cn"

/-- The long name of a category, in lower case and without separators. -/
def longName : Category → String
  | .upperLetter => "uppercaseletter"
  | .lowerLetter => "lowercaseletter"
  | .titleLetter => "titlecaseletter"
  | .modifierLetter => "modifierletter"
  | .otherLetter => "otherletter"
  | .nonspacingMark => "nonspacingmark"
  | .spacingMark => "spacingmark"
  | .enclosingMark => "enclosingmark"
  | .decimalNumber => "decimalnumber"
  | .letterNumber => "letternumber"
  | .otherNumber => "othernumber"
  | .connectorPunctuation => "connectorpunctuation"
  | .dashPunctuation => "dashpunctuation"
  | .openPunctuation => "openpunctuation"
  | .closePunctuation => "closepunctuation"
  | .initialPunctuation => "initialpunctuation"
  | .finalPunctuation => "finalpunctuation"
  | .otherPunctuation => "otherpunctuation"
  | .mathSymbol => "mathsymbol"
  | .currencySymbol => "currencysymbol"
  | .modifierSymbol => "modifiersymbol"
  | .otherSymbol => "othersymbol"
  | .spaceSeparator => "spaceseparator"
  | .lineSeparator => "lineseparator"
  | .paragraphSeparator => "paragraphseparator"
  | .control => "control"
  | .format => "format"
  | .surrogate => "surrogate"
  | .privateUse => "privateuse"
  | .unassigned => "unassigned"

end Category

/-- The categories of all characters in order, as runs: a letter for the category (`A` to `Z` and
`a` to `d` for `Category.all`, `x` and `y` for upper and lower case letters by turns, beginning
with upper or lower case) and the number of characters in the run, left out if it is one. The
lines of the table are to be read as one. -/
def table : List String :=
  ["Z32WR3TR3NORSRMR2I10R2S3R2A26NROULUB26NSOSZ33WRT4VRUVEPSaVUVSK2UBR2UKEQK3RA23SA7B24SB8x56y17",
   "y48x6B2A2y4ABA3B2A4BA2BA3B3A2BA2y6x4y4ABA3y4AB2EAB3E4ACBACBACy17y19BACy4A2y59B6A2BA2B2ABA4y9",
   "B68EB27D18U4D12U14D5U7DUDU17F112x4DUABd2DB3RAd4U2ARA3dAdA2BA17dA9B35AB2A3B3x24B4ABSABA2B2A51",
   "B48x34VF5H2x55x14y97dA38d2DR6B41RMd2V2TdF45MFRF2RF2RFd8E27d4E4R2d11a6S3R2TR2V2F11RaR3E32DE10",
   "F21I10R4E2FE99REF7aVF6D2F2VF4E2I10E3V2ER14daEFE30F27d2E89F11Ed14I10E33F9D2VR3Dd2FT2E22F4DF9D",
   "F3DF5d2R15dE25F3d2RdE11d5E24UE6da2d5F9E41DF24aF32GE54FGFEG3F8G4FG2EF7E10F2R2I10RDE15FG2dE8d2",
   "E2d2E22dE7dEd3E4d2FEG3F4d2G2d2G2FEd8Gd4E2dE3F2d2I10E2T2K6VTERFd2F2GdE6d4E2d2E22dE7dE2dE2dE2",
   "d2FdG3F2d4F2d2F3d3Fd7E4dEd7I10F2E3FRd10F2GdE9dE3dE22dE7dE2dE5d2FEG3F5dF2GdG2Fd2Ed15E2F2d2I10",
   "RTd7EF6dFG2dE8d2E2d2E22dE7dE2dE5d2FEGFGF4d2G2d2G2Fd7F2Gd4E2dE3F2d2I10VEK6d10FEdE6d3E3dE4d3E2",
   "dEdE2d3E2d3E3d3E12d4G2FG2d3G3dG3Fd2Ed6Gd14I10K3V6TVd5FG3FE8dE3dE23dE16d2FEF3G4dF3dF4d7F2dE3",
   "d2Ed2E2F2d2I10d7RK7VEFG2RE8dE3dE23dE10dE5d2FEGFG5dFG2dG2F2d7G2d6E2dE2F2d2I10dE2Gd12F2G2E9dE3",
   "dE41F2EG3F4dG3dG3FEVd4E3GK7E3F2d2I10K9VE6dFG2dE18d3E24dE9dEd2E7d3Fd4G3F3dFdG8d6I10d2G2Rd12",
   "E48FE2F7d4TE6DF8RI10R2d37E2dEdE5dE24dEdE10FE2F9Ed2E5dDdF7dI10d2E4d32EV3R15VRV3F2V6I10K10VFVF",
   "VFNONOG2E8dE36d4F14GF5RF2E5F11dF36dV8FV6dV2R5V4R2d37E43G2F4GF6GF2G2F2EI10R6E6G2F2E4F3EG3E2G7",
   "E3F4E13FG2F2G6FEGI10G3FV2A38dAd5Ad2B43RDB3E329dE4d2E7dEdE4d2E41dE4d2E33dE4d2E7dEdE4d2E15dE57",
   "dE4d2E67d2F3R9K20d3E16V10d6A86d2B6d2ME620VRE17WE26NOd3E75R3J3E8d7E18F3Gd9E19F2GR2d9E18F2d12",
   "E13dE3dF2d12E52F2GF7G8FG2F11R3DR3TEFd2I10d6K10d6R6MR4F3aFI10d6E35DE53d7E5F2E34FEd5E70d10E31d",
   "F3G4F2G3d4G2FG6F3d4Vd3R2I10E30d2E5d11E44d4E26d6I10Kd3V34E23F2G2Fd2R2E53GFGF7dFGFG2F8G6F10d2F",
   "I10d6I10d6R7DR6d2F14HF16d49F4GE47FGF5GFG5FG2E8dR2I10R7V10F9V9R3F2GE30GF4G2F2GF3E2I10E44FGF2",
   "G3FGF3G2d8R4E36G8F8G2F2d3R5I10d3E3I10E30D6R2B9ABd5A43d2A3R8d8F3RF13GF7E4FE6FE2GF2Ed5B44D63",
   "B13DB34D37F64x150B8x98B8A8B6d2A6d2B8A8B8A8B6d2A6d2B8dAdAdAdAB8A8B14d2B8C8B8C8B8C8B5dB2A4CUB",
   "U3B3dB2A4CU3B4d2B2A4dU3B8A5U3d2B3dB2A4CU2dW11a5M6R2PQNP2QNPR8XYa5WR9PQR4L2R3SNOR11SRLR10Wa5d",
   "a10KDd2K6S3NODK10S3NOdD13d3T33d15F13H4FH3F12d15V2AV4AV2BA3B2A3BVAV2SA5V6AVAVAVA4VBA4BE4BV2B2",
   "A2S5AB4VSV2BVK16J35ABJ4KV2d4S5V5S2V4SV2SV2SV7SV31S2V2SVSV31S268V8NONOV20S2V7NOV81SV30S25V40",
   "S6V72d22V11d21K60V78K22V183SV9SV54S8V111SV248NONONONONONONOK30V44S5NOS31NONONONONOS16V256",
   "S131NONONONONONONONONONONOS63NONOS32NOS258V48S21V2S6V39d2V32dV105A48B48ABA3B2x7A3BAB2AB6D2A3",
   "y99BV6x4F3ABd5R4KR2B38dBd5Bd2E56d7DRd14FE23d9E7dE7dE7dE7dE7dE7dE7dE7dF32R2PQPQR3PQRPQR9MR2MR",
   "PQR2PQNONONONOR5DR10M2R4MRNR13V2R3NONONONOMd34V26dV89d12V214d26V16WR3VDEJNONONONONOV2NONONON",
   "OMNO2VJ9F4G2MD5V2J3DERV2dE86d2F2U2D2EME90RD3Ed5E43dE94dV2K4V10E32V38d9VE16V31dK10V30K8VK15",
   "V32K10V39K15V320E6592V64E21013DE1143d3V55d9E40D6R2E268DR3E16I10E2d20x46EFH3RF10RDx28D2F2E70",
   "J10F2R6d8U23D9U2x14B2x62DB8x5x10DU2x4Ex4B2x21A4BA5y16A3y4ABd2ABdBdy8d21D3ABED2BE7FE3FE4FE23",
   "G2F2GV4Fd3K6V2TVd6E52R4d8G2E50G16F2d8R2I10d6F18E6R3ERE2FI10E28F8R2E23F11G2d11RE29d3F3GE47FG2",
   "F4G2F2G3R13dDI10d4R2E5FDE9I10E5dE41F6G2F2G2F2d9E3FE8FGd2I10d2R4E16DE6V3EGFGE50FEF3E2F2E5F2EF",
   "Ed24E2DR2E11GF2G2R2ED2GFd10E6d2E6d2E6d9E7dE7dB43UD4B9DU2d4B80E35G2FG2FG2RGFd2I10d6E11172d12",
   "E23d4E49d4b2048c6400E366d2E106d38B7d12B5d5EFE10SE13dE5dEdE2dE2dE108U17d16E363ONV16E64d2E54d7",
   "Vd32E12TV3F16R7NORd6F16RM2L2NONONONONONONONOR2NOR4L3R3dR4MNONONOR3SMS3dRTR2d4E5dE135d2adR3T",
   "R3NORSRMR2I10R2S3R2A26NROULUB26NSOSNORNOR2E10DE45D2E31d3E6d2E6d2E6d2E3d3T2SUVT2dVS4V2d10a3V2",
   "d2E12dE26dE19dE2dE15d2E14d34E123d5R3d4K45d3V9J53K4V17K2V3dV13d3Vd47V45Fd130E29d3E49d15FK27d4",
   "E32K4d9E20JE8Jd5E38F5d5E30dRE36d4E8RJ5d42A40B40E78d2I10d6A36d4B36d4E40d8E52d11RA11dA15dA7dA2",
   "dB11dB15dB7dB2d3E52d12E311d9E22d10E8d24D6dD42dD9d69E6d2EdE44dE2d3Ed2E23dRK8E23V2K7E31d8K9d48",
   "E19dE2d5K5E22K6d3RE26d5Rd64E56d4K2E2K16d2K46EF3dF2d5F4E4dE3dE29d2F3d4FK9d7R9d7E29K2RE29K3d32",
   "E8VE28F2d4K5R7d9E54d3R7E22d2K8E19d5K8E18d7R4d12K7d80E73d55A51d13B51d7K6E36F4d8I10d6I10E4DE",
   "A22d3F5MDB22d8S2d208K31dE42dF2Md2E2d16E3d55F4E29K10Ed8E22F11K4R5d22E18F4R4d38E21K7d20E23d9GF",
   "GE53F15R7d4K20I10FE2F2Ed9F3GE45G3F4G2F2R2aR4Fd10ad2E25d7I10d6F3E36F5GF8dI10R4EG2Ed8E35FR2Ed9",
   "F2GE48G3F9G2E4R4F4RGFI10ERER3dK20d11E18dE25G3F3G2FGF2R6FE2Fd62E7dEdE4dE15dE10Rd6E47FG3F8d5",
   "I10d6F2G2dE8d2E2d2E22dE7dE2dE5dF2EG2FG4d2G2d2G3d2Ed6Gd5E5G2d2F7d3F5d11E10dEd2EdE38dEG3F6dGd2",
   "GdG4dG2FGFEFER2dR2d8F2d29E53G3F8G2F3GFE4R5I10R2dRFE3d30E48G3F6GFG4F2GF2E2REd8I10d166E47G3F4",
   "d2G4F2GF2R23E4F2d34E48G3F8G2FGF2R3Ed11I10d6R13d19E43FGFG2F6GFERd6I10d6I20d28E27d2FGFG2F4GF5",
   "d4I10K2R3VE7d185E44G3F9GF2Rd100A32B32I10K9d12E8d2Ed2E8dE2dE24G6dG2d2F2GFEGEGFR3d9I10d70E8d2",
   "E39G3F4d2F2G4FEREGd27EF10E40F6GEF4R8Fd8EF6G2F3E46F13GF2R3ER5d13E73d7R10d182E33Rd14I10d6E9d",
   "E37GF7dF6GFER5d10I10K19d3R2E30d2F22dGF7GF2GF2d73E7dE2dE38F6d3FdF2dF7EFd8I10d6E6dE2dE32G5dF2d",
   "G2FGFEd7I10d310E19F2G2R2d7F2EGE13dE34G2F5d3G2FGFR13I10Fd85Ed15K21V8T4V17d13RE922d102J111dR5",
   "d11E196d2636E97R2d13E1072a16FE6F15d10E3995d5E583d6841E30F12G3F3I10d1734E569d7E31dI10d4R2E79d",
   "I10d6E30d2F5Rd10E48F7R5V4D4RVd10I10dK7dE21d5E19d432D3E40D2R3I10d198A32B32K23R4d101E75d4FEG55",
   "d7F4D13d64D2RDFd11G2d14E6136d8E1238d41E10d8935D4dD7dD2dE291d15Ed29E3d2Ed14E4d8E396d2308E107",
   "d5E13d3E9d7E10d2VF2Ra4d3932V240I10d6V436d76F46d2F23d9V116d60V246d10V39d2V60G2F3V3G6a8F8V2F7",
   "V30F4V61d21V66F3Vd122K20d12K20d12V87d9K25d135A26B26A26B7dB18A26B26AdA2d2Ad2A2d2A4dA8B4dBdB7d",
   "B11A26B26A2dA4d2A8dA7dB26A2dA4dA5dAd3A7dB26A26B26A26B26A26B26A26B26A26B26A26B28d2A25SB25SB6",
   "A25SB25SB6A25SB25SB6A25SB25SB6A25SB25SB6ABd2I50V512F55V4F50V8FV14FV2R5d15F5dF15d1104B10EB20",
   "d6B6d213F7dF17d2F7dF2dF5d5D62d33Fd112E45d3F7D7d2I10d4EVd320E30Fd17E44F4I10d5Td464E27DF4I10",
   "d214E30F2EI10d4Rd480E7dE4dE2dE15dE197d2K9F7d41A34B34F7Dd4I10d4R2d785K59VK3TK4d76K45VK15d194",
   "E4dE27dE2dEd2EdE10dE4dEdEd6Ed4EdEdEdE3dE2dEd2EdEdEdEdEdE2dEd2E4dE7dE4dE4dEdE10dE17d5E3dE5d",
   "E17d52S2d270V44d4V100d12V15d2V15dV15dV37d10K13V161d56V29d13V44d4V9d7V2d14V6d154V251U5V728d4",
   "V17d3V13d3V119d4V95d6V12d4Vd15V12d4V56d8V10d6V40d8V30d2V12d4V2d62V340d12V14d2V13d3V10d5V56d7",
   "V15d2V11d6V9d7V147dV92I10d1030E42720d32E4154d6E222d2E5762d14E7473d15E622d2466E542d1506E4939",
   "d5E4192d711761ad30a96d128F240d65040c65534d2c65534d2"]

/-- A run of characters: the number of its first character, and the letter of its category in
`table`. -/
structure Run where
  first : Nat
  letter : Char
  deriving Inhabited

/-- Reads `table`: the runs so far, the letter and length of the run being read, and where the next
run starts. -/
def readRuns : List Char → Array Run → Char → Nat → Nat → Array Run
  | [], runs, letter, _, first => runs.push ⟨first, letter⟩
  | c :: s, runs, letter, length, first =>
    if c.isDigit then readRuns s runs letter (length * 10 + (c.toNat - 0x30)) first
    else readRuns s (runs.push ⟨first, letter⟩) c 0 (first + if length = 0 then 1 else length)

def runs : Array Run :=
  match table.flatMap String.toList with
  | [] => #[]
  | c :: s => readRuns s #[] c 0 0

/-- Finds the last run that starts at or before `n` by halving the range of indices; `fuel` bounds
the number of halvings. -/
def findRun (n : Nat) : (fuel low high : Nat) → Nat
  | 0, low, _ => low
  | fuel + 1, low, high =>
    if high ≤ low + 1 then low
    else
      let mid := (low + high) / 2
      if (runs[mid]?.getD default).first ≤ n then findRun n fuel mid high
      else findRun n fuel low mid

def category (c : Char) : Category :=
  let run := runs[findRun c.toNat 12 0 runs.size]?.getD default
  let even := (c.toNat - run.first) % 2 = 0
  if run.letter = 'x' then if even then .upperLetter else .lowerLetter
  else if run.letter = 'y' then if even then .lowerLetter else .upperLetter
  else if run.letter ≤ 'Z' then Category.all.getD (run.letter.toNat - 0x41) .unassigned
  else Category.all.getD (run.letter.toNat - 0x61 + 26) .unassigned

/-- The categories that a property name stands for: a category, or one of their groups. Names are
compared in lower case without separators. -/
def categoriesNamed? (name : String) : Option (List Category) :=
  let starting (c : Char) := Category.all.filter fun g => g.abbreviation.toList.head? == some c
  match name with
  | "l" | "letter" => some (starting 'L')
  | "lc" | "casedletter" => some [.upperLetter, .lowerLetter, .titleLetter]
  | "m" | "mark" | "combiningmark" => some (starting 'M')
  | "n" | "number" => some (starting 'N')
  | "p" | "punctuation" | "punct" => some (starting 'P')
  | "s" | "symbol" => some (starting 'S')
  | "z" | "separator" => some (starting 'Z')
  | "c" | "other" => some (starting 'C')
  | "cntrl" => some [.control]
  | "digit" => some [.decimalNumber]
  | _ =>
    (Category.all.find? fun g =>
      String.ofList (g.abbreviation.toList.map Char.toLower) = name || g.longName = name).map ([·])

def isDecimalDigit (c : Char) : Bool :=
  if c.toNat < 0x80 then c.isDigit else category c = .decimalNumber

/-- Characters of words: letters, marks, digits and what joins words. -/
def isWordChar (c : Char) : Bool :=
  if c.toNat < 0x80 then c.isAlphanum || c == '_'
  else
    let n := c.toNat
    match category c with
    | .upperLetter | .lowerLetter | .titleLetter | .modifierLetter | .otherLetter
    | .nonspacingMark | .spacingMark | .enclosingMark
    | .decimalNumber | .letterNumber | .connectorPunctuation => true
    | _ =>
      n == 0x200C || n == 0x200D || (0x24B6 ≤ n && n ≤ 0x24E9) || (0x1F130 ≤ n && n ≤ 0x1F149) ||
        (0x1F150 ≤ n && n ≤ 0x1F169) || (0x1F170 ≤ n && n ≤ 0x1F189)

/-- Characters that show on paper: all but controls, unassigned ones and separators other than the
blank. -/
def isPrintable (c : Char) : Bool :=
  match category c with
  | .control | .format | .surrogate | .privateUse | .unassigned
  | .lineSeparator | .paragraphSeparator => false
  | .spaceSeparator => c == ' '
  | _ => true

/-- Spacing marks and others that continue the character before them, as ranges. -/
def otherExtenders : List (Nat × Nat) :=
  [(0x9BE, 0x9BE), (0x9D7, 0x9D7), (0xB3E, 0xB3E), (0xB57, 0xB57), (0xBBE, 0xBBE),
   (0xBD7, 0xBD7), (0xCC0, 0xCC0), (0xCC2, 0xCC2), (0xCC7, 0xCC8), (0xCCA, 0xCCB),
   (0xCD5, 0xCD6), (0xD3E, 0xD3E), (0xD57, 0xD57), (0xDCF, 0xDCF), (0xDDF, 0xDDF),
   (0x1715, 0x1715), (0x1734, 0x1734), (0x1B35, 0x1B35), (0x1B3B, 0x1B3B), (0x1B3D, 0x1B3D),
   (0x1B43, 0x1B44), (0x1BAA, 0x1BAA), (0x1BF2, 0x1BF3), (0x200C, 0x200C), (0x302E, 0x302F),
   (0xA953, 0xA953), (0xA9C0, 0xA9C0), (0xFF9E, 0xFF9F), (0x111C0, 0x111C0), (0x11235, 0x11235),
   (0x1133E, 0x1133E), (0x1134D, 0x1134D), (0x11357, 0x11357), (0x113B8, 0x113B8),
   (0x113C2, 0x113C2), (0x113C5, 0x113C5), (0x113C7, 0x113C9), (0x113CF, 0x113CF),
   (0x114B0, 0x114B0), (0x114BD, 0x114BD), (0x115AF, 0x115AF), (0x116B6, 0x116B6),
   (0x11930, 0x11930), (0x1193D, 0x1193D), (0x11F41, 0x11F41), (0x16FF0, 0x16FF1),
   (0x1D165, 0x1D166), (0x1D16D, 0x1D172), (0xE0020, 0xE007F)]

/-- Characters that continue the one before them, such as combining accents. -/
def isGraphemeExtender (c : Char) : Bool :=
  if c.toNat < 0x80 then false
  else
    match category c with
    | .nonspacingMark | .enclosingMark => true
    | _ => otherExtenders.any fun (low, high) => low ≤ c.toNat && c.toNat ≤ high

end Signpost.Unicode
