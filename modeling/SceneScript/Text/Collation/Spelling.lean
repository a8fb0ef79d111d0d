/-!
# Spelling — characters that are written with others

An accented letter is spelt as its letter and its accents. Capitals, ligatures, raised
characters and the like are spelt as plain characters in another form. Forms are ordered, and
decide between texts that agree in letters and accents.
-/

namespace SceneScript.Collation

/-- The ways in which a character is written, the lesser first. -/
inductive Form where
  | smallKana | plain | wide | ligature | capital | wideCapital | ligatureCapital
  | smallKatakana | katakana | superscript | subscript | vertical | final | noBreak | fraction
deriving DecidableEq, Repr

namespace Form

/-- All forms, the lesser first. -/
def all : List Form :=
  [.smallKana, .plain, .wide, .ligature, .capital, .wideCapital, .ligatureCapital, .smallKatakana,
   .katakana, .superscript, .subscript, .vertical, .final, .noBreak, .fraction]

/-- The place of a form. -/
def rank (f : Form) : Nat := all.idxOf f

end Form

/-- The entries of several lines of a table: each is a character and its spelling, and blanks
    stand between them. -/
def entries (lines : List String) : List (Nat × List Nat) :=
  lines.flatMap fun l => (l.splitOn " ").filterMap fun entry =>
    match entry.toList.map Char.toNat with
    | c :: spelling => some (c, spelling)
    | []            => none

/-- Letters with accents. -/
def accented : List (Nat × List Nat) :=
  entries
    ["àa\u0300 áa\u0301 âa\u0302 ãa\u0303 äa\u0308 åa\u030a çc\u0327 èe\u0300 ée\u0301",
     "êe\u0302 ëe\u0308 ìi\u0300 íi\u0301 îi\u0302 ïi\u0308 ñn\u0303 òo\u0300 óo\u0301",
     "ôo\u0302 õo\u0303 öo\u0308 øo\u0338 ùu\u0300 úu\u0301 ûu\u0302 üu\u0308 ýy\u0301",
     "ÿy\u0308 āa\u0304 ăa\u0306 ąa\u0328 ćc\u0301 ĉc\u0302 ċc\u0307 čc\u030c ďd\u030c",
     "đd\u0335 ēe\u0304 ĕe\u0306 ėe\u0307 ęe\u0328 ěe\u030c ĝg\u0302 ğg\u0306 ġg\u0307",
     "ģg\u0327 ĥh\u0302 ħh\u0335 ĩi\u0303 īi\u0304 ĭi\u0306 įi\u0328 ĵj\u0302 ķk\u0327",
     "ĺl\u0301 ļl\u0327 ľl\u030c ŀl\u200d łl\u0335 ńn\u0301 ņn\u0327 ňn\u030c ōo\u0304",
     "ŏo\u0306 őo\u030b ŕr\u0301 ŗr\u0327 řr\u030c śs\u0301 ŝs\u0302 şs\u0327 šs\u030c",
     "ţt\u0327 ťt\u030c ũu\u0303 ūu\u0304 ŭu\u0306 ůu\u030a űu\u030b ųu\u0328 ŵw\u0302",
     "ŷy\u0302 źz\u0301 żz\u0307 žz\u030c ơo\u031b ưu\u031b ǎa\u030c ǐi\u030c ǒo\u030c",
     "ǔu\u030c ǖu\u0308\u0304 ǘu\u0308\u0301 ǚu\u0308\u030c ǜu\u0308\u0300 ǟa\u0308\u0304",
     "ǡa\u0307\u0304 ǧg\u030c ǩk\u030c ǫo\u0328 ǭo\u0328\u0304 ǯʒ\u030c ǰj\u030c ǵg\u0301",
     "ǹn\u0300 ǻa\u030a\u0301 ǿo\u0338\u0301 ȁa\u030f ȃa\u0311 ȅe\u030f ȇe\u0311 ȉi\u030f",
     "ȋi\u0311 ȍo\u030f ȏo\u0311 ȑr\u030f ȓr\u0311 ȕu\u030f ȗu\u0311 șs\u0326 țt\u0326",
     "ȟh\u030c ȧa\u0307 ȩe\u0327 ȫo\u0308\u0304 ȭo\u0303\u0304 ȯo\u0307 ȱo\u0307\u0304",
     "ȳy\u0304 \u030e\u030d \u0312\u030d \u0315\u030d \u0317\u0316 \u0318\u0316 \u0319\u0316",
     "\u031a\u030d \u031c\u0316 \u031d\u0316 \u031e\u0316 \u031f\u0316 \u0320\u0316",
     "\u0329\u0316 \u032a\u0316 \u032b\u0316 \u032c\u0316 \u032f\u0316 \u0333\u0316",
     "\u0337\u0336 \u033a\u0316 \u033b\u0316 \u033c\u0316 \u033d\u030d \u033e\u030d",
     "\u033f\u030d \u0340\u0300 \u0341\u0301 \u0343\u0313 \u0344\u0308\u0301 \u0346\u030d",
     "\u0347\u0316 \u0348\u0316 \u0349\u0316 \u034a\u030d \u034b\u030d \u034c\u030d",
     "\u034d\u0316 \u034e\u0316 \u0350\u030d \u0351\u030d \u0352\u030d \u0353\u0316",
     "\u0354\u0316 \u0355\u0316 \u0356\u0316 \u0357\u030d \u0359\u0316 \u035a\u0316",
     "\u035b\u030d \u035c\u0316 \u035d\u030d \u035e\u030d \u035f\u0316 \u0362\u0316 \u0374ʹ",
     "\u037e; ΄´ ΅¨\u0301 \u0387· ΐι\u0308\u0301 άα\u0301 έε\u0301 ήη\u0301 ίι\u0301",
     "ΰυ\u0308\u0301 ϊι\u0308 ϋυ\u0308 όο\u0301 ύυ\u0301 ώω\u0301 ѐе\u0300 ёе\u0308 ѓг\u0301",
     "їі\u0308 ќк\u0301 ѝи\u0300 ўу\u0306 ѷѵ\u030f \u0484\u030d \u0485\u0314 \u0486\u0313",
     "\u0487\u030d ӂж\u0306 ӑа\u0306 ӓа\u0308 ӗе\u0306 ӛә\u0308 ӝж\u0308 ӟз\u0308 ӣи\u0304",
     "ӥи\u0308 ӧо\u0308 ӫө\u0308 ӭэ\u0308 ӯу\u0304 ӱу\u0308 ӳу\u030b ӵч\u0308 ӹы\u0308",
     "ḁa\u0325 ḃb\u0307 ḅb\u0323 ḇb\u0331 ḉc\u0327\u0301 ḋd\u0307 ḍd\u0323 ḏd\u0331 ḑd\u0327",
     "ḓd\u032d ḕe\u0304\u0300 ḗe\u0304\u0301 ḙe\u032d ḛe\u0330 ḝe\u0327\u0306 ḟf\u0307",
     "ḡg\u0304 ḣh\u0307 ḥh\u0323 ḧh\u0308 ḩh\u0327 ḫh\u032e ḭi\u0330 ḯi\u0308\u0301 ḱk\u0301",
     "ḳk\u0323 ḵk\u0331 ḷl\u0323 ḹl\u0323\u0304 ḻl\u0331 ḽl\u032d ḿm\u0301 ṁm\u0307 ṃm\u0323",
     "ṅn\u0307 ṇn\u0323 ṉn\u0331 ṋn\u032d ṍo\u0303\u0301 ṏo\u0303\u0308 ṑo\u0304\u0300",
     "ṓo\u0304\u0301 ṕp\u0301 ṗp\u0307 ṙr\u0307 ṛr\u0323 ṝr\u0323\u0304 ṟr\u0331 ṡs\u0307",
     "ṣs\u0323 ṥs\u0301\u0307 ṧs\u030c\u0307 ṩs\u0323\u0307 ṫt\u0307 ṭt\u0323 ṯt\u0331",
     "ṱt\u032d ṳu\u0324 ṵu\u0330 ṷu\u032d ṹu\u0303\u0301 ṻu\u0304\u0308 ṽv\u0303 ṿv\u0323",
     "ẁw\u0300 ẃw\u0301 ẅw\u0308 ẇw\u0307 ẉw\u0323 ẋx\u0307 ẍx\u0308 ẏy\u0307 ẑz\u0302",
     "ẓz\u0323 ẕz\u0331 ẖh\u0331 ẗt\u0308 ẘw\u030a ẙy\u030a ạa\u0323 ảa\u0309 ấa\u0302\u0301",
     "ầa\u0302\u0300 ẩa\u0302\u0309 ẫa\u0302\u0303 ậa\u0323\u0302 ắa\u0306\u0301",
     "ằa\u0306\u0300 ẳa\u0306\u0309 ẵa\u0306\u0303 ặa\u0323\u0306 ẹe\u0323 ẻe\u0309 ẽe\u0303",
     "ếe\u0302\u0301 ềe\u0302\u0300 ểe\u0302\u0309 ễe\u0302\u0303 ệe\u0323\u0302 ỉi\u0309",
     "ịi\u0323 ọo\u0323 ỏo\u0309 ốo\u0302\u0301 ồo\u0302\u0300 ổo\u0302\u0309 ỗo\u0302\u0303",
     "ộo\u0323\u0302 ớo\u031b\u0301 ờo\u031b\u0300 ởo\u031b\u0309 ỡo\u031b\u0303",
     "ợo\u031b\u0323 ụu\u0323 ủu\u0309 ứu\u031b\u0301 ừu\u031b\u0300 ửu\u031b\u0309",
     "ữu\u031b\u0303 ựu\u031b\u0323 ỳy\u0300 ỵy\u0323 ỷy\u0309 ỹy\u0303 〇0 〡1 〢2 〣3 〤4",
     "〥5 〦6 〧7 〨8 〩9 〲〱\u3099 〴〳\u3099 がか\u3099 ぎき\u3099 ぐく\u3099 げけ\u3099",
     "ごこ\u3099 ざさ\u3099 じし\u3099 ずす\u3099 ぜせ\u3099 ぞそ\u3099 だた\u3099 ぢち\u3099",
     "づつ\u3099 でて\u3099 どと\u3099 ばは\u3099 ぱは\u309a びひ\u3099 ぴひ\u309a ぶふ\u3099",
     "ぷふ\u309a べへ\u3099 ぺへ\u309a ぼほ\u3099 ぽほ\u309a ゔう\u3099 ゞゝ\u3099 ヾヽ\u3099"]

/-- Small syllables. -/
def smallKanaEntries : List (Nat × List Nat) :=
  entries
    ["ぁあ ぃい ぅう ぇえ ぉお っつ ゃや ゅゆ ょよ ゎわ ゕか ゖけ"]

/-- Ligatures and variants. -/
def ligatureEntries : List (Nat × List Nat) :=
  entries
    ["µμ ßs\u200ds æa\u200de ðd\u200d ĳij ŉʼn œo\u200de ſs\u200c ƍzw ƾts ǆdz\u030c ǉlj ǌnj",
     "ǣa\u200de\u0304 ǳdz ǽa\u200de\u0301 ȸdb ȹqp ʣdz ʤdʒ ʥdʑ ʦts ʧtʃ ʨtɕ ʩfŋ ʪls ʫlz ͺι ϐβ ϑθ",
     "ϕφ ϖπ ϗκαι ϰκ ϱρ ϲσ ϵε ґг\u200c ևեւ ẚaʾ ẛs\u200c\u0307 ỻll ․. ‥.. …... ″′′ ‴′′′ ‶‵‵ ‷‵‵‵",
     "‼!! ⁇?? ⁈?! ⁉!? ⁗′′′′ 〆しめ 〶〒 〼ます ﬀff ﬁfi ﬂfl ﬃffi ﬄffl ﬅs\u200ct ﬆst \u0363a",
     "\u0364e \u0365i \u0366o \u0367u \u0368c \u0369d \u036ah \u036bm \u036cr \u036dt \u036ev",
     "\u036fx"]

/-- Capitals. -/
def capitalEntries : List (Nat × List Nat) :=
  entries
    ["Àà Áá Ââ Ãã Ää Åå Çç Èè Éé Êê Ëë Ìì Íí Îî Ïï Ññ Òò Óó Ôô Õõ Öö Øø Ùù Úú Ûû Üü Ýý Þþ Āā",
     "Ăă Ąą Ćć Ĉĉ Ċċ Čč Ďď Đđ Ēē Ĕĕ Ėė Ęę Ěě Ĝĝ Ğğ Ġġ Ģģ Ĥĥ Ħħ Ĩĩ Īī Ĭĭ Įį İi\u0307 Ĵĵ Ķķ Ĺĺ",
     "Ļļ Ľľ Ŀŀ Łł Ńń Ņņ Ňň Ŋŋ Ōō Ŏŏ Őő Ŕŕ Ŗŗ Řř Śś Ŝŝ Şş Šš Ţţ Ťť Ŧŧ Ũũ Ūū Ŭŭ Ůů Űű Ųų Ŵŵ Ŷŷ",
     "Ÿÿ Źź Żż Žž Ɓɓ Ƃƃ Ƅƅ Ɔɔ Ƈƈ Ɖɖ Ɗɗ Ƌƌ Ǝǝ Əə Ɛɛ Ƒƒ Ɠɠ Ɣɣ Ɩɩ Ɨɨ Ƙƙ Ɯɯ Ɲɲ Ɵɵ Ơơ Ƣƣ Ƥƥ Ʀʀ Ƨƨ",
     "Ʃʃ Ƭƭ Ʈʈ Ưư Ʊʊ Ʋʋ Ƴƴ Ƶƶ Ʒʒ Ƹƹ Ƽƽ Ǎǎ Ǐǐ Ǒǒ Ǔǔ Ǖǖ Ǘǘ Ǚǚ Ǜǜ Ǟǟ Ǡǡ Ǥǥ Ǧǧ Ǩǩ Ǫǫ Ǭǭ Ǯǯ Ǵǵ Ƕƕ",
     "Ƿƿ Ǹǹ Ǻǻ Ǿǿ Ȁȁ Ȃȃ Ȅȅ Ȇȇ Ȉȉ Ȋȋ Ȍȍ Ȏȏ Ȑȑ Ȓȓ Ȕȕ Ȗȗ Șș Țț Ȝȝ Ȟȟ Ƞƞ Ȣȣ Ȥȥ Ȧȧ Ȩȩ Ȫȫ Ȭȭ Ȯȯ Ȱȱ",
     "Ȳȳ Ⱥⱥ Ȼȼ Ƚƚ Ⱦⱦ Ɂɂ Ƀƀ Ʉʉ Ʌʌ Ɇɇ Ɉɉ Ɋɋ Ɍɍ Ɏɏ Ͱͱ Ͳͳ Ͷͷ Ϳϳ Άά Έέ Ήή Ίί Όό Ύύ Ώώ Αα Ββ Γγ Δδ",
     "Εε Ζζ Ηη Θθ Ιι Κκ Λλ Μμ Νν Ξξ Οο Ππ Ρρ Σσ Ττ Υυ Φφ Χχ Ψψ Ωω Ϊϊ Ϋϋ Ϙϙ Ϛϛ Ϝϝ Ϟϟ Ϡϡ Ϣϣ Ϥϥ",
     "Ϧϧ Ϩϩ Ϫϫ Ϭϭ Ϯϯ Ϸϸ Ϻϻ Ͻͻ Ͼͼ Ͽͽ Ѐѐ Ёё Ђђ Ѓѓ Єє Ѕѕ Іі Її Јј Љљ Њњ Ћћ Ќќ Ѝѝ Ўў Џџ Аа Бб Вв",
     "Гг Дд Ее Жж Зз Ии Йй Кк Лл Мм Нн Оо Пп Рр Сс Тт Уу Фф Хх Цц Чч Шш Щщ Ъъ Ыы Ьь Ээ Юю Яя",
     "Ѡѡ Ѣѣ Ѥѥ Ѧѧ Ѩѩ Ѫѫ Ѭѭ Ѯѯ Ѱѱ Ѳѳ Ѵѵ Ѷѷ Ѹѹ Ѻѻ Ѽѽ Ѿѿ Ҁҁ Ҋҋ Ҍҍ Ҏҏ Ғғ Ҕҕ Җҗ Ҙҙ Ққ Ҝҝ Ҟҟ Ҡҡ Ңң",
     "Ҥҥ Ҧҧ Ҩҩ Ҫҫ Ҭҭ Үү Ұұ Ҳҳ Ҵҵ Ҷҷ Ҹҹ Һһ Ҽҽ Ҿҿ Ӏӏ Ӂӂ Ӄӄ Ӆӆ Ӈӈ Ӊӊ Ӌӌ Ӎӎ Ӑӑ Ӓӓ Ӕӕ Ӗӗ Әә Ӛӛ Ӝӝ",
     "Ӟӟ Ӡӡ Ӣӣ Ӥӥ Ӧӧ Өө Ӫӫ Ӭӭ Ӯӯ Ӱӱ Ӳӳ Ӵӵ Ӷӷ Ӹӹ Ӻӻ Ӽӽ Ӿӿ Ԁԁ Ԃԃ Ԅԅ Ԇԇ Ԉԉ Ԋԋ Ԍԍ Ԏԏ Ԑԑ Ԓԓ Ԕԕ Ԗԗ",
     "Ԙԙ Ԛԛ Ԝԝ Ԟԟ Ԡԡ Ԣԣ Ԥԥ Ԧԧ Ԩԩ Ԫԫ Ԭԭ Ԯԯ Աա Բբ Գգ Դդ Եե Զզ Էէ Ըը Թթ Ժժ Իի Լլ Խխ Ծծ Կկ Հհ Ձձ",
     "Ղղ Ճճ Մմ Յյ Նն Շշ Ոո Չչ Պպ Ջջ Ռռ Սս Վվ Տտ Րր Ցց Ււ Փփ Քք Օօ Ֆֆ Ḁḁ Ḃḃ Ḅḅ Ḇḇ Ḉḉ Ḋḋ Ḍḍ Ḏḏ",
     "Ḑḑ Ḓḓ Ḕḕ Ḗḗ Ḙḙ Ḛḛ Ḝḝ Ḟḟ Ḡḡ Ḣḣ Ḥḥ Ḧḧ Ḩḩ Ḫḫ Ḭḭ Ḯḯ Ḱḱ Ḳḳ Ḵḵ Ḷḷ Ḹḹ Ḻḻ Ḽḽ Ḿḿ Ṁṁ Ṃṃ Ṅṅ Ṇṇ Ṉṉ",
     "Ṋṋ Ṍṍ Ṏṏ Ṑṑ Ṓṓ Ṕṕ Ṗṗ Ṙṙ Ṛṛ Ṝṝ Ṟṟ Ṡṡ Ṣṣ Ṥṥ Ṧṧ Ṩṩ Ṫṫ Ṭṭ Ṯṯ Ṱṱ Ṳṳ Ṵṵ Ṷṷ Ṹṹ Ṻṻ Ṽṽ Ṿṿ Ẁẁ Ẃẃ",
     "Ẅẅ Ẇẇ Ẉẉ Ẋẋ Ẍẍ Ẏẏ Ẑẑ Ẓẓ Ẕẕ Ạạ Ảả Ấấ Ầầ Ẩẩ Ẫẫ Ậậ Ắắ Ằằ Ẳẳ Ẵẵ Ặặ Ẹẹ Ẻẻ Ẽẽ Ếế Ềề Ểể Ễễ Ệệ",
     "Ỉỉ Ịị Ọọ Ỏỏ Ốố Ồồ Ổổ Ỗỗ Ộộ Ớớ Ờờ Ởở Ỡỡ Ợợ Ụụ Ủủ Ứứ Ừừ Ửử Ữữ Ựự Ỳỳ Ỵỵ Ỷỷ Ỹỹ Ỽỽ Ỿỿ"]

/-- Ligatures and variants of capitals. -/
def ligatureCapitalEntries : List (Nat × List Nat) :=
  entries
    ["Æa\u200de Ðd\u200d Ĳij Œo\u200de Ǆdz\u030c ǅdz\u030c Ǉlj ǈlj Ǌnj ǋnj Ǣa\u200de\u0304 Ǳdz",
     "ǲdz Ǽa\u200de\u0301 Ϗκαι ϒυ ϓυ\u0301 ϔυ\u0308 ϴθ Ϲσ Ґг\u200c ẞs\u200ds Ỻll ₨rs"]

/-- Small syllables in the angular script. -/
def smallKatakanaEntries : List (Nat × List Nat) :=
  entries
    ["ァあ ィい ゥう ェえ ォお ッつ ャや ュゆ ョよ ヮわ ヵか ヶけ"]

/-- Syllables in the angular script. -/
def katakanaEntries : List (Nat × List Nat) :=
  entries
    ["アあ イい ウう エえ オお カか ガが キき ギぎ クく グぐ ケけ ゲげ コこ ゴご サさ ザざ",
     "シし ジじ スす ズず セせ ゼぜ ソそ ゾぞ タた ダだ チち ヂぢ ツつ ヅづ テて デで トと",
     "ドど ナな ニに ヌぬ ネね ノの ハは バば パぱ ヒひ ビび ピぴ フふ ブぶ プぷ ヘへ ベべ",
     "ペぺ ホほ ボぼ ポぽ マま ミみ ムむ メめ モも ヤや ユゆ ヨよ ラら リり ルる レれ ロろ",
     "ワわ ヰゐ ヱゑ ヲを ンん ヴゔ ヷわ\u3099 ヸゐ\u3099 ヹゑ\u3099 ヺを\u3099"]

/-- Raised characters. -/
def superscriptEntries : List (Nat × List Nat) :=
  entries
    ["ªa ²2 ³3 ¹1 ºo ʰh ʱɦ ʲj ʳr ʴɹ ʵɻ ʶʁ ʷw ʸy ˠɣ ˡl ˢs ˣx ˤʕ ჼნ ⁰0 ⁱi ⁴4 ⁵5 ⁶6 ⁷7 ⁸8 ⁹9 ⁺+",
     "⁻− ⁼= ⁽( ⁾) ⁿn"]

/-- Lowered characters. -/
def subscriptEntries : List (Nat × List Nat) :=
  entries
    ["₀0 ₁1 ₂2 ₃3 ₄4 ₅5 ₆6 ₇7 ₈8 ₉9 ₊+ ₋− ₌= ₍( ₎) ₐa ₑe ₒo ₓx ₔə ₕh ₖk ₗl ₘm ₙn ₚp ₛs ₜt"]

/-- Two syllables written as one. -/
def verticalEntries : List (Nat × List Nat) :=
  entries
    ["ゟより ヿこと"]

/-- Letters as they are written at the end of a word. -/
def finalEntries : List (Nat × List Nat) :=
  entries
    ["ςσ \u05da\u05db \u05dd\u05de \u05df\u05e0 \u05e3\u05e4 \u05e5\u05e6"]

/-- Marks at which no line breaks. -/
def noBreakEntries : List (Nat × List Nat) :=
  entries
    ["‑‐"]

/-- Fractions. -/
def fractionEntries : List (Nat × List Nat) :=
  entries
    ["¼1⁄4 ½1⁄2 ¾3⁄4"]

/-- Blanks of various widths. -/
def blankEntries (blanks : List Nat) : List (Nat × List Nat) := blanks.map fun b => (b, [0x20])

/-- All forms that have a table, with their entries. -/
def variants : List (Form × List (Nat × List Nat)) :=
  [(.smallKana, smallKanaEntries),
   (.ligature, ligatureEntries),
   (.capital, capitalEntries),
   (.ligatureCapital, ligatureCapitalEntries),
   (.smallKatakana, smallKatakanaEntries),
   (.katakana, katakanaEntries),
   (.superscript, superscriptEntries),
   (.subscript, subscriptEntries),
   (.vertical, verticalEntries),
   (.final, finalEntries),
   (.noBreak, noBreakEntries),
   (.fraction, fractionEntries),
   (.wide, blankEntries [0x3000]),
   (.ligature, blankEntries
     [0x2000, 0x2001, 0x2002, 0x2003, 0x2004, 0x2005, 0x2006, 0x2008, 0x2009, 0x200A, 0x205F]),
   (.noBreak, blankEntries [0xA0, 0x2007, 0x202F])]

end SceneScript.Collation
