import NovelGraph.Story.Kind
import NovelGraph.Text.LowerCase
import NovelGraph.Wording

/-! Short explanations of blocks, parameters and choices. -/
namespace NovelGraph.Hint

def ofKind? : BlockKind → Option String
  | .say => some "Диалог персонажа. Используется для реплик персонажей в игре."
  | .narration => some "Повествование. Текст от автора без указания персонажа."
  | .voice => some "Голосовая реплика. Привязывает аудиофайл к диалогу."
  | .center => some "Центрированный текст. Отображает текст по центру экрана."
  | .screenText => some "Текст на экране. Отображает текст в указанной позиции."
  | .scene => some "Смена фона. Очищает экран и устанавливает новый фон."
  | .showImage => some "Показать изображение. Отображает персонажа или изображение на экране."
  | .hideImage => some "Скрыть изображение. Убирает персонажа или изображение с экрана."
  | .image =>
    some ("Определение изображения. Создает именованное изображение для использования в " ++
      "show/hide.")
  | .start =>
    some ("Стартовый блок. Точка входа в сцену. Имеет свой собственный label, на который " ++
      "могут ссылаться блоки JUMP и CALL. Подключайте к нему все блоки, которые должны " ++
      "выполняться первыми.")
  | .ifElse => some "Условное ветвление. Выполняет код в зависимости от условия (True/False)."
  | .whileLoop => some "Цикл while. Повторяет код пока условие истинно."
  | .forLoop => some "Цикл for. Перебирает элементы списка или диапазона."
  | .menu => some "Меню выбора. Предлагает игроку выбрать один из вариантов."
  | .jump =>
    some ("Переход на метку (акт). Безусловный переход к указанной метке другого акта. " ++
      "Используется для ветвления сюжета - выбор А ведет к одному акту, выбор Б к " ++
      "другому.")
  | .call =>
    some ("Вызов сцены (акта). Вызывает другую сцену (акт) и возвращается обратно после " ++
      "return. Используется для под-сцен, которые должны вернуть управление.")
  | .label => some "Метка. Точка входа для переходов (jump/call)."
  | .returnFrom => some "Возврат. Завершает текущую сцену и возвращает управление."
  | .pause => some "Пауза. Останавливает выполнение на указанное время."
  | .transition => some "Переход. Применяет визуальный эффект перехода между сценами."
  | .withEffect => some "Применить переход. Применяет переход к предыдущему действию."
  | .sound => some "Звуковой эффект. Воспроизводит короткий звук."
  | .music => some "Фоновая музыка. Воспроизводит музыку в фоне."
  | .stopSound => some "Остановить звук. Прекращает воспроизведение звукового эффекта."
  | .stopMusic => some "Остановить музыку. Прекращает воспроизведение музыки."
  | .queueSound => some "Очередь звука. Добавляет звук в очередь воспроизведения."
  | .queueMusic => some "Очередь музыки. Добавляет музыку в очередь воспроизведения."
  | .setVar => some "Установить переменную. Присваивает значение переменной."
  | .defaultVar =>
    some ("Значение по умолчанию. Устанавливает начальное значение переменной (только при " ++
      "первом запуске).")
  | .define => some "Определение константы. Создает именованную константу."
  | .code => some "Python код. Выполняет произвольный Python код."
  | .character => some "Определение персонажа. Создает персонажа с именем и настройками."
  | .style => some "Определение стиля. Создает кастомный стиль для UI элементов."
  | _ => none

def parameters : List (String × String) :=
  [("who", "Имя персонажа, который говорит. Должен быть определен через CHARACTER блок."),
    ("text", "Текст для отображения."),
    ("expression", "Выражение персонажа. Опционально."),
    ("at", "Позиция на экране (например: left, right, center). Опционально."),
    ("with_transition", "Переход для повествования. Опционально."),
    ("question", "Вопрос или текст перед меню выбора. Опционально."),
    ("choices", "Список вариантов выбора. Каждый вариант может иметь текст, переход и условие."),
    ("condition",
      "Python выражение, которое возвращает True или False (например: variable > 10)."),
    ("variable", "Имя переменной (например: player_name, score)."),
    ("iterable", "Список или диапазон для перебора (например: [1, 2, 3] или range(10))."),
    ("target",
      "Имя метки (акта) для перехода. Можно выбрать из списка всех актов проекта или " ++
      "ввести вручную."),
    ("label",
      "Имя метки (акта) для вызова. Можно выбрать из списка всех актов проекта или " ++
      "ввести вручную."),
    ("duration", "Длительность паузы в секундах (например: 1.0, 2.5)."),
    ("transition", "Название перехода (например: dissolve, fade, pixellate)."),
    ("sound_file", "Путь к файлу звука (например: 'audio/sound.ogg')."),
    ("music_file", "Путь к файлу музыки (например: 'audio/music.ogg')."),
    ("fadein", "Время плавного появления в секундах. Опционально."),
    ("fadeout", "Время плавного исчезновения в секундах. Опционально."),
    ("loop", "Зациклить воспроизведение (True/False)."),
    ("value", "Значение переменной. Может быть число, строка, список или словарь."),
    ("name", "Имя переменной персонажа (например: e, alice)."),
    ("display_name", "Имя, которое будет отображаться в игре (например: 'Алиса')."),
    ("path", "Путь к файлу изображения (например: 'images/character.png')."),
    ("background", "Имя фона или изображения (например: 'bg room' или 'black')."),
    ("layer", "Слой для отображения. Опционально."),
    ("character", "Имя персонажа или изображения для скрытия."),
    ("behind", "Показать за другим изображением. Опционально."),
    ("zorder", "Порядок отображения (число). Опционально."),
    ("voice_file", "Путь к файлу голоса (например: 'voice/alice_01.ogg')."),
    ("xpos", "X координата позиции. Опционально."),
    ("ypos", "Y координата позиции. Опционально."),
    ("code", "Python код для выполнения. Может быть несколько строк.")]

def transitions : List (String × String) :=
  [("dissolve", "Плавное растворение. Плавный переход между сценами."),
    ("fade", "Затемнение. Плавное затемнение и появление."),
    ("pixellate", "Пикселизация. Эффект пикселизации при переходе."),
    ("move", "Движение. Перемещение изображения."),
    ("moveinleft", "Вход слева. Изображение входит слева."),
    ("moveinright", "Вход справа. Изображение входит справа."),
    ("moveintop", "Вход сверху. Изображение входит сверху."),
    ("moveinbottom", "Вход снизу. Изображение входит снизу."),
    ("moveoutleft", "Выход влево. Изображение уходит влево."),
    ("moveoutright", "Выход вправо. Изображение уходит вправо."),
    ("moveouttop", "Выход вверх. Изображение уходит вверх."),
    ("moveoutbottom", "Выход вниз. Изображение уходит вниз."),
    ("zoomin", "Приближение. Увеличение изображения."),
    ("zoomout", "Отдаление. Уменьшение изображения."),
    ("vpunch", "Вертикальный удар. Эффект вертикального удара."),
    ("hpunch", "Горизонтальный удар. Эффект горизонтального удара."),
    ("blinds", "Жалюзи. Эффект жалюзи."),
    ("squares", "Квадраты. Переход квадратами."),
    ("wipeleft", "Стирание влево. Стирание слева направо."),
    ("wiperight", "Стирание вправо. Стирание справа налево."),
    ("wipeup", "Стирание вверх. Стирание снизу вверх."),
    ("wipedown", "Стирание вниз. Стирание сверху вниз."),
    ("slideleft", "Слайд влево. Слайд влево."),
    ("slideright", "Слайд вправо. Слайд вправо."),
    ("slideup", "Слайд вверх. Слайд вверх."),
    ("slidedown", "Слайд вниз. Слайд вниз."),
    ("pushleft", "Толчок влево. Толчок влево."),
    ("pushright", "Толчок вправо. Толчок вправо."),
    ("pushup", "Толчок вверх. Толчок вверх."),
    ("pushdown", "Толчок вниз. Толчок вниз."),
    ("irisin", "Раскрытие ириса. Раскрытие ириса."),
    ("irisout", "Закрытие ириса. Закрытие ириса."),
    ("circleirisin", "Круглый ирис внутрь. Круглый ирис внутрь."),
    ("circleirisout", "Круглый ирис наружу. Круглый ирис наружу."),
    ("circlewipe", "Круговое стирание. Круговое стирание."),
    ("alphadissolve", "Альфа-растворение. Плавное растворение с альфа-каналом."),
    ("size", "Изменение размера. Изменение размера изображения."),
    ("push", "Толчок. Толчок изображения."),
    ("pull", "Притягивание. Притягивание изображения.")]

def positions : List (String × String) :=
  [("left", "Слева. Позиция слева на экране."),
    ("right", "Справа. Позиция справа на экране."),
    ("center", "Центр. Позиция по центру экрана."),
    ("truecenter", "Истинный центр. Точный центр экрана."),
    ("topleft", "Верхний левый угол. Позиция в верхнем левом углу."),
    ("topright", "Верхний правый угол. Позиция в верхнем правом углу."),
    ("topcenter", "Верхний центр. Позиция в верхней части по центру."),
    ("bottomleft", "Нижний левый угол. Позиция в нижнем левом углу."),
    ("bottomright", "Нижний правый угол. Позиция в нижнем правом углу."),
    ("bottomcenter", "Нижний центр. Позиция в нижней части по центру.")]

def layers : List (String × String) :=
  [("master", "Основной слой. Основной слой для отображения изображений."),
    ("transient", "Временный слой. Временный слой для переходов."),
    ("screens", "Слой экранов. Слой для UI элементов."),
    ("overlay", "Слой наложения. Слой поверх всего остального.")]

def backgrounds : List (String × String) :=
  [("black", "Черный фон. Полностью черный фон."),
    ("white", "Белый фон. Полностью белый фон.")]

def entryOr (table : List (String × String)) (name default : String) : String :=
  (table.lookup name).getD default

def block (k : BlockKind) : HostM Value :=
  Wording.phrase ("tooltip.block." ++ Text.lower k.name)
    ((ofKind? k).getD "Блок для создания Ren'Py визуальной новеллы.")

def parameter (name : String) : HostM Value :=
  Wording.phrase ("tooltip.parameter." ++ name) (entryOr parameters name "Параметр блока.")

def transition (name : String) : HostM Value :=
  Wording.phrase ("tooltip.transition." ++ name) (entryOr transitions name ("Переход: " ++ name))

def position (name : String) : HostM Value :=
  Wording.phrase ("tooltip.position." ++ name) (entryOr positions name ("Позиция: " ++ name))

def layer (name : String) : HostM Value :=
  Wording.phrase ("tooltip.layer." ++ name) (entryOr layers name ("Слой: " ++ name))

def background (name : String) : HostM Value :=
  Wording.phrase ("tooltip.background." ++ name) (entryOr backgrounds name ("Фон: " ++ name))

end NovelGraph.Hint
