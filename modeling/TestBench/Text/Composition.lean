import TestBench.Sorting
import TestBench.Text.Marks

/-! Composition of characters with the marks that follow them. Only plain forms are composed: the
table leaves out upper case. Hangul syllables are composed by counting. -/
namespace TestBench.Text

/-- A second character, and each first one followed by what the two compose. -/
def compositions : List (Nat × String) :=
  [(0x300, "aàeèiìoòuùüǜnǹеѐиѝēḕōṑwẁâầăằêềôồơờưừyỳἀἂἁἃἐἒἑἓἠἢἡἣἰἲἱἳὀὂὁὃὐὒὑὓὠὢὡὣαὰεὲ"),
   (0x300, "ηὴιὶοὸυὺωὼϊῒϋῢ"),
   (0x301, "aáeéiíoóuúyýcćlĺnńrŕsśzźüǘgǵåǻæǽøǿϊΐαάεέηήιίϋΰοόυύωώгѓкќçḉēḗïḯkḱmḿõṍōṓ"),
   (0x301, "pṕũṹwẃâấăắêếôốơớưứἀἄἁἅἐἔἑἕἠἤἡἥἰἴἱἵὀὄὁὅὐὔὑὕὠὤὡὥ"),
   (0x302, "aâeêiîoôuûcĉgĝhĥjĵsŝwŵyŷzẑạậẹệọộ"), (0x303, "aãnñoõiĩuũvṽâẫăẵeẽêễôỗơỡưữyỹ"),
   (0x304, "aāeēiīoōuūüǖäǟȧǡæǣǫǭöȫõȭȯȱyȳиӣуӯgḡḷḹṛṝαᾱιῑυῡ"),
   (0x306, "aăeĕgğiĭoŏuŭийуўжӂаӑеӗȩḝạặαᾰιῐυῠ"),
   (0x307, "cċeėgġzżaȧoȯbḃdḋfḟhḣmṁnṅpṗrṙsṡśṥšṧṣṩtṫwẇxẋyẏ𐗒𐗉𐗚𐗤"),
   (0x308, "aäeëiïoöuüyÿιϊυϋеёіїаӓәӛжӝзӟиӥоӧөӫэӭуӱчӵыӹhḧõṏūṻwẅxẍtẗ"),
   (0x309, "aảâẩăẳeẻêểiỉoỏôổơởuủưửyỷ"), (0x30A, "aåuůwẘyẙ"), (0x30B, "oőuűуӳ"),
   (0x30C, "cčdďeělľnňrřsštťzžaǎiǐoǒuǔüǚgǧkǩʒǯjǰhȟ"), (0x30F, "aȁeȅiȉoȍrȑuȕѵѷ"),
   (0x311, "aȃeȇiȋoȏrȓuȗ"), (0x313, "αἀεἐηἠιἰοὀυὐωὠρῤ"), (0x314, "αἁεἑηἡιἱοὁυὑωὡρῥ"),
   (0x31B, "oơuư"), (0x323, "bḅdḍhḥkḳlḷmṃnṇrṛsṣtṭvṿwẉzẓaạeẹiịoọơợuụưựyỵ"), (0x324, "uṳ"),
   (0x325, "aḁ"), (0x326, "sștț"), (0x327, "cçgģkķlļnņrŗsştţeȩdḑhḩ"), (0x328, "aąeęiįuųoǫ"),
   (0x32D, "dḓeḙlḽnṋtṱuṷ"), (0x32E, "hḫ"), (0x330, "eḛiḭuṵ"), (0x331, "bḇdḏkḵlḻnṉrṟtṯzẕhẖ"),
   (0x338, "←↚→↛↔↮⇐⇍⇔⇎⇒⇏∃∄∈∉∋∌∣∤∥∦∼≁≃≄≅≇≈≉=≠≡≢≍≭<≮>≯≤≰≥≱≲≴≳≵≶≸≷≹≺⊀≻⊁⊂⊄⊃⊅⊆⊈⊇⊉⊢⊬⊨⊭⊩⊮"),
   (0x338, "⊫⊯≼⋠≽⋡⊑⋢⊒⋣⊲⋪⊳⋫⊴⋬⊵⋭"), (0x342, "ἀἆἁἇἠἦἡἧἰἶἱἷὐὖὑὗὠὦὡὧαᾶηῆιῖϊῗυῦϋῧωῶ"), (0x653, "اآ"),
   (0x654, "اأوؤيئەۀہۂےۓ"), (0x655, "اإ"), (0x93C, "नऩरऱळऴ"), (0x9BE, "েো"), (0x9D7, "েৌ"),
   (0xB3E, "େୋ"), (0xB56, "େୈ"), (0xB57, "େୌ"), (0xBBE, "ெொேோ"), (0xBD7, "ஒஔெௌ"), (0xC56, "ెై"),
   (0xCC2, "ೆೊ"), (0xCD5, "ಿೀೆೇೊೋ"), (0xCD6, "ೆೈ"), (0xD3E, "െൊേോ"), (0xD57, "െൌ"), (0xDCA, "ෙේොෝ"),
   (0xDCF, "ෙො"), (0xDDF, "ෙෞ"), (0x102E, "ဥဦ"), (0x1B35, "ᬅᬆᬇᬈᬉᬊᬋᬌᬍᬎᬑᬒᬺᬻᬼᬽᬾᭀᬿᭁᭂᭃ"),
   (0x3099, "かがきぎくぐけげこごさざしじすずせぜそぞただちぢつづてでとどはばひびふぶへべほぼうゔゝゞカガキギクグケゲコゴサザシジスズセゼソゾタダチヂツヅ"),
   (0x3099, "テデトドハバヒビフブヘベホボウヴワヷヰヸヱヹヲヺヽヾ"), (0x309A, "はぱひぴふぷへぺほぽハパヒピフプヘペホポ"), (0x110BA, "𑂙𑂚𑂛𑂜𑂥𑂫"),
   (0x11127, "𑄱𑄮𑄲𑄯"), (0x1133E, "𑍇𑍋"), (0x11357, "𑍇𑍌"), (0x113B8, "𑏅𑎸"), (0x113BB, "𑎄𑎅"),
   (0x113C2, "𑎋𑎎𑏅𑏂"), (0x113C9, "𑎂𑎃𑎐𑎑𑏅𑏉"), (0x114B0, "𑒹𑒼"), (0x114BA, "𑒹𑒻"), (0x114BD, "𑒹𑒾"),
   (0x115AF, "𑖸𑖺𑖹𑖻"), (0x11930, "𑤵𑤸"), (0x1611E, "𖄡𖄞"), (0x1611F, "𖄦𖄩𖄤𖄡𖄦𖄢𖄧"), (0x16120, "𖄨𖄡𖄨"),
   (0x16129, "𖄡𖄩"), (0x16D67, "𖵨𖵧𖵣𖵩𖵩𖵪")]

/-- The neighbours at even places, as pairs. -/
def pairs : List Char → List (Char × Char)
  | a :: b :: rest => (a, b) :: pairs rest
  | _ => []

/-- A vowel joins a leading consonant, a trailing consonant joins both. -/
def composeHangul? (a b : Nat) : Option Char :=
  if 0x1100 ≤ a ∧ a < 0x1113 ∧ 0x1161 ≤ b ∧ b < 0x1176 then
    some (Char.ofNat (0xAC00 + ((a - 0x1100) * 21 + (b - 0x1161)) * 28))
  else if 0xAC00 ≤ a ∧ a < 0xD7A4 ∧ (a - 0xAC00) % 28 = 0 ∧ 0x11A8 ≤ b ∧ b < 0x11C3 then
    some (Char.ofNat (a + (b - 0x11A7)))
  else none

def composeListed? (a b : Char) : Option Char :=
  compositions.findSome? fun (second, row) =>
    if second = b.toNat then ((pairs row.toList).find? (·.1 == a)).map (·.2) else none

def compose? (a b : Char) : Option Char :=
  match composeHangul? a.toNat b.toNat with
  | some c => some c
  | none => composeListed? a b

/-- The two characters that compose this one. -/
def parts? (c : Char) : Option (Char × Char) :=
  compositions.findSome? fun (second, row) =>
    ((pairs row.toList).find? (·.2 == c)).map fun p => (p.1, Char.ofNat second)

/-- Takes apart to this depth what is composed; three levels are the most there are. -/
def decompose : Nat → Char → List Char
  | 0, c => [c]
  | depth + 1, c =>
    match parts? c with
    | some (a, b) => decompose depth a ++ [b]
    | none => [c]

/-- Sorts each run of marks by class. -/
def orderMarks (cs : List Char) : List Char := cs.foldr insertMark []
where
  insertMark (c : Char) : List Char → List Char
    | [] => [c]
    | d :: rest =>
      if combiningClass d = 0 ∨ combiningClass c ≤ combiningClass d then c :: d :: rest
      else d :: insertMark c rest

/-- Composes what follows with the last character that is no mark, past marks of other classes
that do not compose with it; these are kept, the last one first. -/
def composeFrom (base : Char) (kept : List Char) : List Char → List Char
  | [] => base :: kept.reverse
  | c :: rest =>
    let isFree := match kept with
      | [] => true
      | d :: _ => combiningClass d < combiningClass c
    match if isFree then compose? base c else none with
    | some composed => composeFrom composed kept rest
    | none =>
      if combiningClass c = 0 then base :: kept.reverse ++ composeFrom c [] rest
      else composeFrom base (c :: kept) rest

def compose (cs : List Char) : List Char :=
  match orderMarks (cs.flatMap (decompose 3)) with
  | [] => []
  | c :: rest => composeFrom c [] rest

end TestBench.Text
