import DocBase.Unicode.Age
import DocBase.Unicode.Segmentation

/-! The sets of Unicode 16 by the names and the pairs of name and value that go for them. -/
namespace DocBase.Unicode

open Category Property

def binaryProperties : List (List String × CodePoints) :=
  [(["ahex", "asciihexdigit"], asciiHexDigit), (["alpha", "alphabetic"], alphabetic),
   (["bidic", "bidicontrol"], bidiControl), (["bidim", "bidimirrored"], bidiMirrored),
   (["ci", "caseignorable"], caseIgnorable), (["cased"], cased),
   (["cwcf", "changeswhencasefolded"], changesWhenCasefolded),
   (["cwcm", "changeswhencasemapped"], changesWhenCasemapped),
   (["cwl", "changeswhenlowercased"], changesWhenLowercased),
   (["cwt", "changeswhentitlecased"], changesWhenTitlecased),
   (["cwu", "changeswhenuppercased"], changesWhenUppercased), (["dash"], dash),
   (["di", "defaultignorablecodepoint"], defaultIgnorable), (["dep", "deprecated"], deprecated),
   (["dia", "diacritic"], diacritic), (["emoji"], Emoji.emoji),
   (["ebase", "emojimodifierbase"], Emoji.modifierBase),
   (["ecomp", "emojicomponent"], Emoji.component), (["emod", "emojimodifier"], Emoji.modifier),
   (["epres", "emojipresentation"], Emoji.presentation),
   (["extpict", "extendedpictographic"], Emoji.extendedPictographic),
   (["ext", "extender"], extender), (["grbase", "graphemebase"], graphemeBase),
   (["grext", "graphemeextend"], graphemeExtend), (["grlink", "graphemelink"], graphemeLink),
   (["hex", "hexdigit"], hexDigit), (["hyphen"], hyphen),
   (["idsb", "idsbinaryoperator"], idsBinaryOperator),
   (["idst", "idstrinaryoperator"], idsTrinaryOperator),
   (["idsu", "idsunaryoperator"], idsUnaryOperator),
   (["idcompatmathstart"], idCompatMathStart), (["idcompatmathcontinue"], idCompatMathContinue),
   (["idc", "idcontinue"], idContinue), (["ids", "idstart"], idStart),
   (["ideo", "ideographic"], ideographic), (["joinc", "joincontrol"], joinControl),
   (["loe", "logicalorderexception"], logicalOrderException), (["lower", "lowercase"], lowercase),
   (["math"], math), (["mcm", "modifiercombiningmark"], modifierCombiningMark),
   (["nchar", "noncharactercodepoint"], noncharacter),
   (["oalpha", "otheralphabetic"], otherAlphabetic),
   (["odi", "otherdefaultignorablecodepoint"], otherDefaultIgnorable),
   (["ogrext", "othergraphemeextend"], otherGraphemeExtend),
   (["oidc", "otheridcontinue"], otherIdContinue), (["oids", "otheridstart"], otherIdStart),
   (["olower", "otherlowercase"], otherLowercase), (["omath", "othermath"], otherMath),
   (["oupper", "otheruppercase"], otherUppercase), (["patsyn", "patternsyntax"], patternSyntax),
   (["patws", "patternwhitespace"], patternWhiteSpace),
   (["pcm", "prependedconcatenationmark"], prependedConcatenationMark),
   (["qmark", "quotationmark"], quotationMark), (["radical"], radical),
   (["ri", "regionalindicator"], Emoji.regionalIndicator),
   (["sterm", "sentenceterminal"], sentenceTerminal), (["sd", "softdotted"], softDotted),
   (["term", "terminalpunctuation"], terminalPunctuation),
   (["uideo", "unifiedideograph"], unifiedIdeograph), (["upper", "uppercase"], uppercase),
   (["vs", "variationselector"], variationSelector),
   (["space", "whitespace", "wspace"], whiteSpace), (["xidc", "xidcontinue"], xidContinue),
   (["xids", "xidstart"], xidStart)]

def generalCategories : List (List String × CodePoints) :=
  [(["any"], .scalars), (["assigned"], assigned), (["ascii"], [(0, 0x7f)]),
   (["c", "other"], other), (["cc", "cntrl", "control"], Category.control),
   (["cf", "format"], format), (["cn", "unassigned"], unassigned),
   (["co", "privateuse"], privateUse),
   (["l", "letter"], letter), (["lc", "casedletter"], casedLetter),
   (["ll", "lowercaseletter"], lowercaseLetter), (["lm", "modifierletter"], modifierLetter),
   (["lo", "otherletter"], otherLetter), (["lt", "titlecaseletter"], titlecaseLetter),
   (["lu", "uppercaseletter"], uppercaseLetter), (["m", "combiningmark", "mark"], mark),
   (["mc", "spacingmark"], spacingMark), (["me", "enclosingmark"], enclosingMark),
   (["mn", "nonspacingmark"], nonspacingMark), (["n", "number"], number),
   (["nd", "decimalnumber", "digit"], decimalNumber), (["nl", "letternumber"], letterNumber),
   (["no", "othernumber"], otherNumber), (["p", "punct", "punctuation"], punctuation),
   (["pc", "connectorpunctuation"], connectorPunctuation),
   (["pd", "dashpunctuation"], dashPunctuation), (["pe", "closepunctuation"], closePunctuation),
   (["pf", "finalpunctuation"], finalPunctuation),
   (["pi", "initialpunctuation"], initialPunctuation),
   (["po", "otherpunctuation"], otherPunctuation), (["ps", "openpunctuation"], openPunctuation),
   (["s", "symbol"], symbol), (["sc", "currencysymbol"], currencySymbol),
   (["sk", "modifiersymbol"], modifierSymbol), (["sm", "mathsymbol"], mathSymbol),
   (["so", "othersymbol"], otherSymbol), (["z", "separator"], separator),
   (["zl", "lineseparator"], lineSeparator), (["zp", "paragraphseparator"], paragraphSeparator),
   (["zs", "spaceseparator"], spaceSeparator)]

def lookup? (table : List (List String × CodePoints)) (name : String) : Option CodePoints :=
  (table.find? fun (names, _) => names.contains name).map Prod.snd

/-- Names are compared by their ASCII characters in lower case, without blanks, hyphens,
underscores and a leading `is`, unless that would leave no more than `c`. -/
def looseName (cs : List Char) : String :=
  let kept (cs : List Char) : List Char :=
    (cs.filter fun c => c.toNat < 128 && c ≠ ' ' && c ≠ '-' && c ≠ '_').map Char.toLower
  String.ofList <| match cs with
    | a :: b :: rest =>
      if a.toLower = 'i' ∧ b.toLower = 's' then
        if kept rest = ['c'] then ['i', 's', 'c'] else kept rest
      else kept cs
    | _ => kept cs

/-- The set behind a single name. The names `cf`, `sc` and `lc` mean categories. -/
def ofName? (name : List Char) : Option CodePoints :=
  let name := looseName name
  ((lookup? binaryProperties name).or (lookup? generalCategories name)).or (script? name)

/-- The set of the code points for which a property has a value. -/
def ofValue? (property value : List Char) : Option CodePoints :=
  let value := looseName value
  match looseName property with
  | "generalcategory" | "gc" => lookup? generalCategories value
  | "script" | "sc" => script? value
  | "scriptextensions" | "scx" => scriptExtension? value
  | "age" => assignedBy? value
  | "graphemeclusterbreak" | "gcb" => lookup? GraphemeBreak.classes value
  | "wordbreak" | "wb" => lookup? WordBreak.classes value
  | "sentencebreak" | "sb" => lookup? SentenceBreak.classes value
  | _ => none

end DocBase.Unicode
