import StepCatalog.Gherkin.Keyword

/-!
# The languages of Gherkin

The step keywords of every language, as its users list them.
-/

namespace StepCatalog.Gherkin

/-- The languages with their words: for givens, actions, outcomes, conjunctions and contrasts, and the titles of example tables. -/
def languages : List Language := [
  ⟨"af", ["* ", "Gegewe "], ["* ", "Wanneer "], ["* ", "Dan "], ["* ", "En "], ["* ", "Maar "], ["Voorbeelde"]⟩,
  ⟨"am", ["* ", "Դիցուք "], ["* ", "Եթե ", "Երբ "], ["* ", "Ապա "], ["* ", "Եվ "], ["* ", "Բայց "], ["Օրինակներ"]⟩,
  ⟨"amh", ["* ", "የተሰጠ "], ["* ", "መቼ "], ["* ", "ከዚያ "], ["* ", "እና "], ["* ", "ግን "], ["ምሳሌዎች", "ሁናቴዎች"]⟩,
  ⟨"an", ["* ", "Dau ", "Dada ", "Daus ", "Dadas "], ["* ", "Cuan "], ["* ", "Alavez ", "Allora ", "Antonces "],
    ["* ", "Y ", "E "], ["* ", "Pero "], ["Eixemplos"]⟩,
  ⟨"ar", ["* ", "بفرض "], ["* ", "متى ", "عندما "], ["* ", "اذاً ", "ثم "], ["* ", "و "], ["* ", "لكن "], ["امثلة"]⟩,
  ⟨"ast", ["* ", "Dáu ", "Dada ", "Daos ", "Daes "], ["* ", "Cuando "], ["* ", "Entós "], ["* ", "Y ", "Ya "],
    ["* ", "Peru "], ["Exemplos"]⟩,
  ⟨"az", ["* ", "Tutaq ki ", "Verilir "], ["* ", "Əgər ", "Nə vaxt ki "], ["* ", "O halda "], ["* ", "Və ", "Həm "],
    ["* ", "Amma ", "Ancaq "], ["Nümunələr"]⟩,
  ⟨"be", ["* ", "Няхай ", "Дадзена "], ["* ", "Калі "], ["* ", "Тады "], ["* ", "I ", "Ды ", "Таксама "],
    ["* ", "Але ", "Інакш "], ["Прыклады"]⟩,
  ⟨"bg", ["* ", "Дадено "], ["* ", "Когато "], ["* ", "То "], ["* ", "И "], ["* ", "Но "], ["Примери"]⟩,
  ⟨"bm", ["* ", "Diberi ", "Bagi "], ["* ", "Apabila "], ["* ", "Maka ", "Kemudian "], ["* ", "Dan "],
    ["* ", "Tetapi ", "Tapi "], ["Contoh"]⟩,
  ⟨"bs", ["* ", "Dato "], ["* ", "Kada "], ["* ", "Zatim "], ["* ", "I ", "A "], ["* ", "Ali "], ["Primjeri"]⟩,
  ⟨"ca", ["* ", "Donat ", "Donada ", "Atès ", "Atesa "], ["* ", "Quan "], ["* ", "Aleshores ", "Cal "], ["* ", "I "],
    ["* ", "Però "], ["Exemples"]⟩,
  ⟨"cs", ["* ", "Pokud ", "Za předpokladu "], ["* ", "Když "], ["* ", "Pak "], ["* ", "A také ", "A "], ["* ", "Ale "],
    ["Příklady"]⟩,
  ⟨"cy-GB", ["* ", "Anrhegedig a "], ["* ", "Pryd "], ["* ", "Yna "], ["* ", "A "], ["* ", "Ond "], ["Enghreifftiau"]⟩,
  ⟨"da", ["* ", "Givet "], ["* ", "Når "], ["* ", "Så "], ["* ", "Og "], ["* ", "Men "], ["Eksempler"]⟩,
  ⟨"de", ["* ", "Angenommen ", "Gegeben sei ", "Gegeben seien "], ["* ", "Wenn "], ["* ", "Dann "], ["* ", "Und "],
    ["* ", "Aber "], ["Beispiele"]⟩,
  ⟨"el", ["* ", "Δεδομένου "], ["* ", "Όταν "], ["* ", "Τότε "], ["* ", "Και "], ["* ", "Αλλά "],
    ["Παραδείγματα", "Σενάρια"]⟩,
  ⟨"em", ["* ", "😐"], ["* ", "🎬"], ["* ", "🙏"], ["* ", "😂"], ["* ", "😔"], ["📓"]⟩,
  ⟨"en", ["* ", "Given "], ["* ", "When "], ["* ", "Then "], ["* ", "And "], ["* ", "But "], ["Examples", "Scenarios"]⟩,
  ⟨"en-Scouse", ["* ", "Givun ", "Youse know when youse got "], ["* ", "Wun ", "Youse know like when "],
    ["* ", "Dun ", "Den youse gotta "], ["* ", "An "], ["* ", "Buh "], ["Examples"]⟩,
  ⟨"en-au", ["* ", "Y'know "], ["* ", "It's just unbelievable "], ["* ", "But at the end of the day I reckon "],
    ["* ", "Too right "], ["* ", "Yeah nah "], ["You'll wanna"]⟩,
  ⟨"en-lol", ["* ", "I CAN HAZ "], ["* ", "WEN "], ["* ", "DEN "], ["* ", "AN "], ["* ", "BUT "], ["EXAMPLZ"]⟩,
  ⟨"en-old", ["* ", "Thurh ", "Þurh ", "Ðurh "],
    ["* ", "Bæþsealf ", "Bæþsealfa ", "Bæþsealfe ", "Ciricæw ", "Ciricæwe ", "Ciricæwa "],
    ["* ", "Tha ", "Þa ", "Ða ", "Tha the ", "Þa þe ", "Ða ðe "], ["* ", "Ond ", "7 "], ["* ", "Ac "],
    ["Se the", "Se þe", "Se ðe"]⟩,
  ⟨"en-pirate", ["* ", "Gangway! "], ["* ", "Blimey! "], ["* ", "Let go and haul "], ["* ", "Aye "], ["* ", "Avast! "],
    ["Dead men tell no tales"]⟩,
  ⟨"en-tx", ["Fixin' to ", "All git out "], ["Quick out of the chute "], ["There’s no tree but bears some fruit "],
    ["Come hell or high water "], ["Well now hold on, I'll you what "],
    ["Now that's a story longer than a cattle drive in July"]⟩,
  ⟨"eo", ["* ", "Donitaĵo ", "Komence "], ["* ", "Se "], ["* ", "Do "], ["* ", "Kaj "], ["* ", "Sed "], ["Ekzemploj"]⟩,
  ⟨"es", ["* ", "Dado ", "Dada ", "Dados ", "Dadas "], ["* ", "Cuando "], ["* ", "Entonces "], ["* ", "Y ", "E "],
    ["* ", "Pero "], ["Ejemplos"]⟩,
  ⟨"et", ["* ", "Eeldades "], ["* ", "Kui "], ["* ", "Siis "], ["* ", "Ja "], ["* ", "Kuid "], ["Juhtumid"]⟩,
  ⟨"fa", ["* ", "با فرض "], ["* ", "هنگامی "], ["* ", "آنگاه "], ["* ", "و "], ["* ", "اما "], ["نمونه ها"]⟩,
  ⟨"fi", ["* ", "Oletetaan "], ["* ", "Kun "], ["* ", "Niin "], ["* ", "Ja "], ["* ", "Mutta "], ["Tapaukset"]⟩,
  ⟨"fr",
    ["* ", "Soit ", "Sachant que ", "Sachant qu'", "Sachant ", "Etant donné que ", "Etant donné qu'", "Etant donné ",
      "Etant donnée ", "Etant donnés ", "Etant données ", "Étant donné que ", "Étant donné qu'", "Étant donné ",
      "Étant donnée ", "Étant donnés ", "Étant données "], ["* ", "Quand ", "Lorsque ", "Lorsqu'"],
    ["* ", "Alors ", "Donc "], ["* ", "Et que ", "Et qu'", "Et "], ["* ", "Mais que ", "Mais qu'", "Mais "], ["Exemples"]⟩,
  ⟨"ga", ["* ", "Cuir i gcás go ", "Cuir i gcás nach ", "Cuir i gcás gur ", "Cuir i gcás nár "],
    ["* ", "Nuair a ", "Nuair nach ", "Nuair ba ", "Nuair nár "], ["* ", "Ansin "], ["* ", "Agus "], ["* ", "Ach "],
    ["Samplaí"]⟩,
  ⟨"gj", ["* ", "આપેલ છે "], ["* ", "ક્યારે "], ["* ", "પછી "], ["* ", "અને "], ["* ", "પણ "], ["ઉદાહરણો"]⟩,
  ⟨"gl", ["* ", "Dado ", "Dada ", "Dados ", "Dadas "], ["* ", "Cando "], ["* ", "Entón ", "Logo "], ["* ", "E "],
    ["* ", "Mais ", "Pero "], ["Exemplos"]⟩,
  ⟨"he", ["* ", "בהינתן "], ["* ", "כאשר "], ["* ", "אז ", "אזי "], ["* ", "וגם "], ["* ", "אבל "], ["דוגמאות"]⟩,
  ⟨"hi", ["* ", "अगर ", "यदि ", "चूंकि "], ["* ", "जब ", "कदा "], ["* ", "तब ", "तदा "], ["* ", "और ", "तथा "],
    ["* ", "पर ", "परन्तु ", "किन्तु "], ["उदाहरण"]⟩,
  ⟨"hr", ["* ", "Zadan ", "Zadani ", "Zadano ", "Ukoliko "], ["* ", "Kada ", "Kad "], ["* ", "Onda "], ["* ", "I "],
    ["* ", "Ali "], ["Primjeri", "Scenariji"]⟩,
  ⟨"ht", ["* ", "Sipoze ", "Sipoze ke ", "Sipoze Ke "], ["* ", "Lè ", "Le "], ["* ", "Lè sa a ", "Le sa a "],
    ["* ", "Ak ", "Epi ", "E "], ["* ", "Men "], ["Egzanp"]⟩,
  ⟨"hu", ["* ", "Amennyiben ", "Adott "], ["* ", "Majd ", "Ha ", "Amikor "], ["* ", "Akkor "], ["* ", "És "],
    ["* ", "De "], ["Példák"]⟩,
  ⟨"id", ["* ", "Dengan ", "Diketahui ", "Diasumsikan ", "Bila ", "Jika "], ["* ", "Ketika "],
    ["* ", "Maka ", "Kemudian "], ["* ", "Dan "], ["* ", "Tapi ", "Tetapi "], ["Contoh", "Misal"]⟩,
  ⟨"is", ["* ", "Ef "], ["* ", "Þegar "], ["* ", "Þá "], ["* ", "Og "], ["* ", "En "], ["Dæmi", "Atburðarásir"]⟩,
  ⟨"it", ["* ", "Dato ", "Data ", "Dati ", "Date "], ["* ", "Quando "], ["* ", "Allora "], ["* ", "E ", "Ed "],
    ["* ", "Ma "], ["Esempi"]⟩,
  ⟨"ja", ["* ", "前提"], ["* ", "もし"], ["* ", "ならば"], ["* ", "且つ", "かつ"], ["* ", "然し", "しかし", "但し", "ただし"], ["例", "サンプル"]⟩,
  ⟨"jv", ["* ", "Nalika ", "Nalikaning "], ["* ", "Manawa ", "Menawa "], ["* ", "Njuk ", "Banjur "], ["* ", "Lan "],
    ["* ", "Tapi ", "Nanging ", "Ananging "], ["Conto", "Contone"]⟩,
  ⟨"ka", ["* ", "მოცემული ", "მოცემულია ", "ვთქვათ "], ["* ", "როდესაც ", "როცა ", "როგორც კი ", "თუ "],
    ["* ", "მაშინ "], ["* ", "და ", "ასევე "], ["* ", "მაგრამ ", "თუმცა "], ["მაგალითები"]⟩,
  ⟨"kn", ["* ", "ನೀಡಿದ "], ["* ", "ಸ್ಥಿತಿಯನ್ನು "], ["* ", "ನಂತರ "], ["* ", "ಮತ್ತು "], ["* ", "ಆದರೆ "], ["ಉದಾಹರಣೆಗಳು"]⟩,
  ⟨"ko", ["* ", "조건 ", "먼저 "], ["* ", "만일 ", "만약 "], ["* ", "그러면 "], ["* ", "그리고 "], ["* ", "하지만 ", "단 "], ["예"]⟩,
  ⟨"lt", ["* ", "Duota "], ["* ", "Kai "], ["* ", "Tada "], ["* ", "Ir "], ["* ", "Bet "],
    ["Pavyzdžiai", "Scenarijai", "Variantai"]⟩,
  ⟨"lu", ["* ", "ugeholl "], ["* ", "wann "], ["* ", "dann "], ["* ", "an ", "a "], ["* ", "awer ", "mä "],
    ["Beispiller"]⟩,
  ⟨"lv", ["* ", "Kad "], ["* ", "Ja "], ["* ", "Tad "], ["* ", "Un "], ["* ", "Bet "], ["Piemēri", "Paraugs"]⟩,
  ⟨"mk-Cyrl", ["* ", "Дадено ", "Дадена "], ["* ", "Кога "], ["* ", "Тогаш "], ["* ", "И "], ["* ", "Но "],
    ["Примери", "Сценарија"]⟩,
  ⟨"mk-Latn", ["* ", "Dadeno ", "Dadena "], ["* ", "Koga "], ["* ", "Togash "], ["* ", "I "], ["* ", "No "],
    ["Primeri", "Scenaria"]⟩,
  ⟨"ml", ["* ", "നൽകിയത്"], ["എപ്പോൾ"], ["* ", "പിന്നെ"], ["* ", "ഒപ്പം"], ["* ", "പക്ഷേ"], ["ഉദാഹരണങ്ങൾ"]⟩,
  ⟨"mn", ["* ", "Өгөгдсөн нь ", "Анх "], ["* ", "Хэрэв "], ["* ", "Тэгэхэд ", "Үүний дараа "], ["* ", "Мөн ", "Тэгээд "],
    ["* ", "Гэхдээ ", "Харин "], ["Тухайлбал"]⟩,
  ⟨"mr", ["* ", "जर", "दिलेल्या प्रमाणे "], ["* ", "जेव्हा "], ["* ", "मग ", "तेव्हा "], ["* ", "आणि ", "तसेच "],
    ["* ", "पण ", "परंतु "], ["उदाहरण"]⟩,
  ⟨"ne", ["* ", "दिइएको ", "दिएको ", "यदि "], ["* ", "जब "], ["* ", "त्यसपछि ", "अनी "], ["* ", "र ", "अनि "],
    ["* ", "तर "], ["उदाहरण", "उदाहरणहरु"]⟩,
  ⟨"nl", ["* ", "Gegeven ", "Stel "], ["* ", "Als ", "Wanneer "], ["* ", "Dan "], ["* ", "En "], ["* ", "Maar "],
    ["Voorbeelden"]⟩,
  ⟨"no", ["* ", "Gitt "], ["* ", "Når "], ["* ", "Så "], ["* ", "Og "], ["* ", "Men "], ["Eksempler"]⟩,
  ⟨"pa", ["* ", "ਜੇਕਰ ", "ਜਿਵੇਂ ਕਿ "], ["* ", "ਜਦੋਂ "], ["* ", "ਤਦ "], ["* ", "ਅਤੇ "], ["* ", "ਪਰ "], ["ਉਦਾਹਰਨਾਂ"]⟩,
  ⟨"pl", ["* ", "Zakładając ", "Mając ", "Zakładając, że "], ["* ", "Jeżeli ", "Jeśli ", "Gdy ", "Kiedy "],
    ["* ", "Wtedy "], ["* ", "Oraz ", "I "], ["* ", "Ale "], ["Przykłady"]⟩,
  ⟨"pt", ["* ", "Dado ", "Dada ", "Dados ", "Dadas "], ["* ", "Quando "], ["* ", "Então ", "Entao "], ["* ", "E "],
    ["* ", "Mas "], ["Exemplos", "Cenários", "Cenarios"]⟩,
  ⟨"ro", ["* ", "Date fiind ", "Dat fiind ", "Dată fiind", "Dati fiind ", "Dați fiind ", "Daţi fiind "],
    ["* ", "Cand ", "Când "], ["* ", "Atunci "], ["* ", "Si ", "Și ", "Şi "], ["* ", "Dar "], ["Exemple"]⟩,
  ⟨"ru", ["* ", "Допустим ", "Дано ", "Пусть "], ["* ", "Когда ", "Если "], ["* ", "То ", "Затем ", "Тогда "],
    ["* ", "И ", "К тому же ", "Также "], ["* ", "Но ", "А ", "Иначе "], ["Примеры"]⟩,
  ⟨"sk", ["* ", "Pokiaľ ", "Za predpokladu "], ["* ", "Keď ", "Ak "], ["* ", "Tak ", "Potom "],
    ["* ", "A ", "A tiež ", "A taktiež ", "A zároveň "], ["* ", "Ale "], ["Príklady"]⟩,
  ⟨"sl", ["Dano ", "Podano ", "Zaradi ", "Privzeto "], ["Ko ", "Ce ", "Če ", "Kadar "], ["Nato ", "Potem ", "Takrat "],
    ["In ", "Ter "], ["Toda ", "Ampak ", "Vendar "], ["Primeri", "Scenariji"]⟩,
  ⟨"sr-Cyrl", ["* ", "За дато ", "За дате ", "За дати "], ["* ", "Када ", "Кад "], ["* ", "Онда "], ["* ", "И "],
    ["* ", "Али "], ["Примери", "Сценарији"]⟩,
  ⟨"sr-Latn", ["* ", "Za dato ", "Za date ", "Za dati "], ["* ", "Kada ", "Kad "], ["* ", "Onda "], ["* ", "I "],
    ["* ", "Ali "], ["Primeri", "Scenariji"]⟩,
  ⟨"sv", ["* ", "Givet "], ["* ", "När "], ["* ", "Så "], ["* ", "Och "], ["* ", "Men "], ["Exempel"]⟩,
  ⟨"ta", ["* ", "கொடுக்கப்பட்ட "], ["* ", "எப்போது "], ["* ", "அப்பொழுது "], ["* ", "மேலும் ", "மற்றும் "],
    ["* ", "ஆனால் "], ["எடுத்துக்காட்டுகள்", "காட்சிகள்", "நிலைமைகளில்"]⟩,
  ⟨"te", ["* ", "చెప్పబడినది "], ["* ", "ఈ పరిస్థితిలో "], ["* ", "అప్పుడు "], ["* ", "మరియు "], ["* ", "కాని "],
    ["ఉదాహరణలు"]⟩,
  ⟨"th", ["* ", "กำหนดให้ "], ["* ", "เมื่อ "], ["* ", "ดังนั้น "], ["* ", "และ "], ["* ", "แต่ "],
    ["ชุดของตัวอย่าง", "ชุดของเหตุการณ์"]⟩,
  ⟨"tlh", ["* ", "ghu' noblu' ", "DaH ghu' bejlu' "], ["* ", "qaSDI' "], ["* ", "vaj "], ["* ", "'ej ", "latlh "],
    ["* ", "'ach ", "'a "], ["ghantoH", "lutmey"]⟩,
  ⟨"tr", ["* ", "Diyelim ki "], ["* ", "Eğer ki "], ["* ", "O zaman "], ["* ", "Ve "], ["* ", "Fakat ", "Ama "],
    ["Örnekler"]⟩,
  ⟨"tt", ["* ", "Әйтик "], ["* ", "Әгәр "], ["* ", "Нәтиҗәдә "], ["* ", "Һәм ", "Вә "], ["* ", "Ләкин ", "Әмма "],
    ["Үрнәкләр", "Мисаллар"]⟩,
  ⟨"uk", ["* ", "Припустимо ", "Припустимо, що ", "Нехай ", "Дано "], ["* ", "Якщо ", "Коли "], ["* ", "То ", "Тоді "],
    ["* ", "І ", "А також ", "Та "], ["* ", "Але "], ["Приклади"]⟩,
  ⟨"ur", ["* ", "اگر ", "بالفرض ", "فرض کیا "], ["* ", "جب "], ["* ", "پھر ", "تب "], ["* ", "اور "], ["* ", "لیکن "],
    ["مثالیں"]⟩,
  ⟨"uz", ["* ", "Belgilangan "], ["* ", "Агар "], ["* ", "Унда "], ["* ", "Ва "], ["* ", "Лекин ", "Бирок ", "Аммо "],
    ["Мисоллар"]⟩,
  ⟨"vi", ["* ", "Biết ", "Cho "], ["* ", "Khi "], ["* ", "Thì "], ["* ", "Và "], ["* ", "Nhưng "], ["Dữ liệu"]⟩,
  ⟨"zh-CN", ["* ", "假如", "假设", "假定"], ["* ", "当"], ["* ", "那么"], ["* ", "而且", "并且", "同时"], ["* ", "但是"], ["例子"]⟩,
  ⟨"zh-TW", ["* ", "假如", "假設", "假定"], ["* ", "當"], ["* ", "那麼"], ["* ", "而且", "並且", "同時"], ["* ", "但是"], ["例子"]⟩]

end StepCatalog.Gherkin
