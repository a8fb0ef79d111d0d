/-!
# Alphabet — characters in dictionary order

The order of the root collation of Unicode, as far as scripts, names and codes are likely to
need it: marks before currencies, currencies before digits, digits before letters, and the
letters script by script. Each list has one character for every place in the order; how other
characters are spelt with these is the matter of the spelling tables.
-/

namespace SceneScript.Collation

/-- The code points of several lines of a table. -/
def codes (lines : List String) : List Nat := lines.flatMap fun l => l.toList.map Char.toNat

/-- Blanks, punctuation and symbols. -/
def markOrder : List Nat :=
  codes
    ["\t\n\x0b\x0c\x0d\u0085\u2028\u2029 ‾_‗-‐‒–—―⁓〜〰゠・,՝、;⁏:!¡՜?¿՞‽.。·჻⁕⁖⁘⁙⁚⁛⁜⁝⁞'‘’‚‛‹›",
     "\"“”„‟〝〞〟«»()[]\x7b\x7d⁅⁆〈〉《》「」『』【】〔〕〖〗〘〙〚〛‖§¶⁋@*⁎⁑/\\&⁊#%‰‱†‡•‣‧⁃⁌",
     "⁍′‵〃〽‸※‿⁔⁀⁐⁁⁂՚՛՟`´˜^¯˘˙¨˚˝¸˛゛゜ʹ͵ʺ˂˃˄˅ˆˇˈˉˊˋˌˍˎˏ˒˓˔˕˖˗˞˟˥˦˧˨˩˪˫ˬ˭˯˰˱˲˳˴˵˶˷˸˹˺˻˼˽˾˿°҂©",
     "®϶+±÷×<=>¬|¦~−⁒⁄〄〒〓〠〷〾〿ːˑ々〻〱〳〵ゝーヽ"]

/-- Currency signs. -/
def currencyOrder : List Nat :=
  codes
    ["¤¢$£¥₠₡₢₣₤₥₦₧₩₪₫€₭₮₯₰₱₲₳₴₵₶₷₸₹₺₻₼₽₾₿"]

/-- Digits, then Latin, Greek, Cyrillic, Georgian, Armenian, Hebrew and Arabic letters. -/
def letterOrder : List Nat :=
  codes
    ["0123456789aⱥɐɑɒbʙƀɓƃcȼƈɕdɖɗƌȡẟeɇǝəɛɘɚɜɝɞʚɤfƒgɡɢǥɠʛɣƣhʜƕɦɧʻʽiıɪɨɩjȷɉʝɟʄkƙʞlʟƚɫɬɭȴɮƛʎmɱnɴɲ",
     "ƞɳȵŋoɶɔɵɷȣpƥɸqʠɋĸrʀɍɹɺɻɼɽɾɿʁsʂȿẜẝʃƪʅʆtŧⱦƫƭʈȶʇuʉɥʮʯɯɰʊvʋỽʌwʍxyʏɏƴỿȝzƶȥʐʑɀʒƹƺʓþƿƻƨƽƅʔɂˀʼˮʾ",
     "ʕʿˁʡʢʖǀǁǂǃʗʘʬʭαβγδεϝͷϛζͱηθιϳκλμνξοπϻϟϙρϼσͼͻͽτυφχψωϡͳϸϣϥϧϩϫϭϯаәӕбвгғӻҕӷдԁђԃҙеєжԫҗзԅԑѕӡԇиҋ",
     "ійјкқӄҡҟҝԟԛлӆԯԓԡљԉԕмӎнԩӊңӈԣҥњԋоөпԥҧҁрҏԗсԍҫтԏҭћуүұѹфхӽӿҳһԧѡѿѽѻцҵчԭҷӌҹҽҿџшщъыьҍѣэюяԙѥѧѫѩѭѯ",
     "ѱѳѵҩԝӏაბგდევზჱთიკლმნჲოპჟრსტჳუფქღყშჩცძწჭხჴჯჰჵჶჷჸჹჺჽჾჿաՠբգդեզէըթժիլխծկհձղճմյնշոչպջռսվտրցւփ",
     "քօֆՙ\u05d0\u05d1\u05d2\u05d3\u05d4\u05d5\u05d6\u05d7\u05d8\u05d9\u05db\u05dc\u05de\u05e0",
     "\u05e1\u05e2\u05e4\u05e6\u05e7\u05e8\u05e9\u05ea\u0621\u0622\u0623\u0624\u0625\u0626",
     "\u0627\u0628\u0629\u062a\u062b\u062c\u062d\u062e\u062f\u0630\u0631\u0632\u0633\u0634",
     "\u0635\u0636\u0637\u0638\u0639\u063a\u0641\u0642\u0643\u063b\u063c\u0644\u0645\u0646",
     "\u0647\u0648\u0649\u064a\u063d\u063e\u063f"]

/-- The syllables of Japanese. -/
def kanaOrder : List Nat :=
  codes
    ["あいうえおかきくけこさしすせそたちつてとなにぬねのはひふへほまみむめもやゆよらりるれろわ",
     "ゐゑをん"]

/-- Marks on letters. The two joiners at the end stand for letters that are written as one, and
    for variants of a letter. -/
def accentOrder : List Nat :=
  codes
    ["\u0332\u0313\u0314\u0301\u0300\u0306\u0302\u030c\u030a\u0342\u0308\u030b\u0303\u0307",
     "\u0338\u0327\u0328\u0304\u030d\u0316\u0336\u3099\u309a\u0335\u0305\u0309\u030f\u0310",
     "\u0311\u031b\u0321\u0322\u0323\u0324\u0325\u0326\u032d\u032e\u0330\u0331\u0334\u0339",
     "\u0345\u0358\u0360\u0361\u0483\u302a\u302b\u302c\u302d\u302e\u302f\u200d\u200c"]

end SceneScript.Collation
